import Stencil.Proofs.Template.Independence

/-!
# Renaming a variable

The name of the variable that an expansion binds is a matter of taste. It can be changed, together
with the references to it in the contents, to any name that the contents do not use; where an
expansion inside binds the old name again, the references belong to that one and stay. Neither name
need be free outside: what surrounds the element may bind both of them.

Two runs are compared, one of which has the new name where the other has the old one. The scopes of
the contents are related as long as the old name is not bound again. Below an element that binds it
again they have the same variables except for the new name, and that is not used there.

## Main definitions

* `Template.used`: the variables that nodes bind or refer to
* `Template.rename`: nodes in which the references to a variable have another name
* `Diagnostic.SameUpToName`: the same problem, told with one name or the other
* `Scope.Renames`: in one scope the new name stands for what the old one stands for in the other

## Main results

* `Template.yield_agree_of_unused`: a variable that is not used does not matter
* `Template.rename_matches`: renamed contents yield the same, up to the name in some messages
* `Template.expandNode_rename`: so does a renamed expansion
-/

namespace Stencil

open Markup Generated

/-! ### Names in a template -/

namespace Markup.Tag

/-- The variable that an element refers to. -/
def reference? (tag : Tag) : Option String :=
  match Directive.ofTag? tag.name with
  | some .var => tag.attribute? "name"
  | _ => none

theorem reference?_eq_some_iff {tag : Tag} {name : String} :
    tag.reference? = some name ↔ tag.RefersTo name := by
  unfold reference? RefersTo
  split
  · rename_i directive
    simp [directive]
  · rename_i notVar
    simp only [reduceCtorEq, false_iff, not_and]
    exact fun directive => absurd directive notVar

/-- An element that refers to a variable binds none. -/
theorem RefersTo.binder?_eq_none {tag : Tag} {name : String} (refers : tag.RefersTo name) :
    tag.binder? = none := by
  simp only [binder?, refers.1]

/-- The tag with another value for one of its attributes, if it has that. -/
def setAttribute (tag : Tag) (key value : String) : Tag :=
  { tag with attributes := tag.attributes.map fun pair =>
      (pair.1, if pair.1 = key then value else pair.2) }

theorem attribute?_setAttribute (tag : Tag) (key value : String) :
    (tag.setAttribute key value).attribute? key = (tag.attribute? key).map fun _ => value := by
  simp only [attribute?, setAttribute]
  induction tag.attributes with
  | nil => rfl
  | cons first rest ih =>
    obtain ⟨firstKey, firstValue⟩ := first
    by_cases same : firstKey = key
    · subst same
      simp
    · have other : (key == firstKey) = false := beq_false_of_ne (Ne.symm same)
      simpa only [List.map_cons, List.lookup_cons, other] using ih

/-- The other attributes stay as they are. -/
theorem attribute?_setAttribute_of_ne (tag : Tag) {key other : String} (value : String)
    (differ : other ≠ key) :
    (tag.setAttribute key value).attribute? other = tag.attribute? other := by
  simp only [attribute?, setAttribute]
  induction tag.attributes with
  | nil => rfl
  | cons first rest ih =>
    obtain ⟨firstKey, firstValue⟩ := first
    by_cases same : firstKey = other
    · subst same
      simp [differ]
    · have notHere : (other == firstKey) = false := beq_false_of_ne (Ne.symm same)
      simpa only [List.map_cons, List.lookup_cons, notHere] using ih

@[simp] theorem name_setAttribute (tag : Tag) (key value : String) :
    (tag.setAttribute key value).name = tag.name := rfl

@[simp] theorem line_setAttribute (tag : Tag) (key value : String) :
    (tag.setAttribute key value).line = tag.line := rfl

/-- The tag with a new name for the variable it refers to, if that has the old name. -/
def renameReference (tag : Tag) (name fresh : String) : Tag :=
  if tag.RefersTo name then tag.setAttribute "name" fresh else tag

end Markup.Tag

namespace Template

mutual

/-- The variables that a node binds or refers to. -/
def usedInNode : Node → List String
  | .text _ _ => []
  | .element tag children => tag.binder?.toList ++ tag.reference?.toList ++ used children
termination_by structural node => node

/-- The variables that nodes bind or refer to. -/
def used : List Node → List String
  | [] => []
  | node :: nodes => usedInNode node ++ used nodes
termination_by structural nodes => nodes

end

mutual

/-- A node in which the references to a variable have a new name. -/
def renameNode (name fresh : String) : Node → Node
  | .text value line => .text value line
  | .element tag children =>
    if tag.binder? = some name then .element tag children
    else .element (tag.renameReference name fresh) (rename name fresh children)
termination_by structural node => node

/-- Nodes in which the references to a variable have a new name, those excepted for which it is
bound again. -/
def rename (name fresh : String) : List Node → List Node
  | [] => []
  | node :: nodes => renameNode name fresh node :: rename name fresh nodes
termination_by structural nodes => nodes

end

variable {name fresh : String} {tag : Tag} {node : Node} {nodes children : List Node}

theorem not_mem_usedInNode_of_mem (unused : fresh ∉ used nodes) (member : node ∈ nodes) :
    fresh ∉ usedInNode node := by
  induction nodes with
  | nil => simp at member
  | cons first nodes ih =>
    rw [used, List.mem_append, not_or] at unused
    rcases List.mem_cons.mp member with rfl | later
    · exact unused.1
    · exact ih unused.2 later

/-- A name that is not used in an element is neither bound nor referred to by it, and is not used in
its contents. -/
theorem not_mem_usedInNode_element :
    fresh ∉ usedInNode (.element tag children) ↔
      tag.binder? ≠ some fresh ∧ ¬ tag.RefersTo fresh ∧ fresh ∉ used children := by
  simp only [usedInNode, List.mem_append, Option.mem_toList, not_or, ne_eq,
    Tag.reference?_eq_some_iff, and_assoc]

end Template

/-! ### What is the same -/

/-- The same kind of problem at the same place. The message is the same too, or else it tells of a
column that there is not, and one of them has the new name of the variable where the other has the
old one. -/
structure Diagnostic.SameUpToName (name fresh : String) (d d' : Diagnostic) : Prop where
  severity : d.severity = d'.severity
  kind : d.kind = d'.kind
  file : d.file = d'.file
  line : d.line = d'.line
  message : d.message = d'.message ∨
    d.kind = .unknownColumn ∧ ∃ column table,
      d.message = (Problem.noSuchColumn column name table).message ∧
        d'.message = (Problem.noSuchColumn column fresh table).message

namespace Diagnostic.SameUpToName

variable {name fresh : String}

theorem refl (d : Diagnostic) : d.SameUpToName name fresh d := ⟨rfl, rfl, rfl, rfl, .inl rfl⟩

theorem noSuchColumn (column table file : String) (line : Nat) :
    SameUpToName name fresh ((Problem.noSuchColumn column name table).reportAt file line)
      ((Problem.noSuchColumn column fresh table).reportAt file line) :=
  ⟨rfl, rfl, rfl, rfl, .inr ⟨rfl, column, table, rfl, rfl⟩⟩

end Diagnostic.SameUpToName

/-- What `name` stands for in the scope `σ`, `fresh` stands for in `τ`. Otherwise the scopes are the
same, except for what `fresh` stands for in `σ` and `name` in `τ`. -/
structure Scope.Renames (name fresh : String) (σ τ : Scope) : Prop where
  alike : Alike True True σ τ
  bound : ∃ binding, σ.lookup name = some binding ∧ τ.lookup fresh = some binding
  others : ∀ other, other ≠ name → other ≠ fresh → σ.lookup other = τ.lookup other

namespace Template

variable {inHeader inSource inDiagnostics : Prop} {file : String} {store : Store} {σ τ : Scope}
  {name fresh : String} {tag : Tag} {node : Node} {nodes children : List Node}

/-! ### A variable that is not used -/

/-- What a node yields does not depend on a variable that is not used in it. -/
theorem yieldNode_agree_of_unused (node : Node) (alike : Scope.Alike inHeader inSource σ τ)
    (others : ∀ other, other ≠ fresh → σ.lookup other = τ.lookup other)
    (unused : fresh ∉ usedInNode node) :
    Agree inHeader inSource inDiagnostics (yieldNode file store σ node)
      (yieldNode file store τ node) := by
  induction node generalizing σ τ with
  | text value line => simpa only [yieldNode_text] using alike.written value
  | element tag children ih =>
    obtain ⟨-, notReferred, unusedInside⟩ := not_mem_usedInNode_element.mp unused
    have samePlan : plan store σ tag = plan store τ tag := by
      refine plan_congr fun other refers => others other ?_
      rintro rfl
      exact notReferred refers
    refine yieldNode_element_agree alike samePlan ?_
    intro action _ derive member
    refine yield_agree_of_forall fun child childMember => ?_
    refine ih child childMember (Action.alike_of_mem_rounds member alike) ?_
      (not_mem_usedInNode_of_mem unusedInside childMember)
    intro other differs
    obtain ⟨bound, lookup⟩ := Action.lookup_of_mem_rounds member
    rw [lookup, lookup, others other differs]

/-- What nodes yield does not depend on a variable that is not used in them. -/
theorem yield_agree_of_unused (alike : Scope.Alike inHeader inSource σ τ)
    (others : ∀ other, other ≠ fresh → σ.lookup other = τ.lookup other)
    (unused : fresh ∉ used nodes) :
    Agree inHeader inSource inDiagnostics (yield file store σ nodes)
      (yield file store τ nodes) :=
  yield_agree_of_forall fun node member =>
    yieldNode_agree_of_unused node alike others (not_mem_usedInNode_of_mem unused member)

/-! ### References -/

/-- A reference to a bound variable writes the value in the column that it names, if it names one
and there is a value in it. -/
theorem plan_of_refersTo {binding : Binding} (store : Store) (reference : tag.RefersTo name)
    (bound : scope.lookup name = some binding) :
    plan store scope tag =
      match tag.attribute? "col" with
      | none => .error (.attributeMissing "col" tag.name)
      | some column =>
        match binding.row.get? column with
        | none => .error (.noSuchColumn column name binding.table)
        | some value => .ok (.writeValue (tag.transformed value) tag.unknownTransform?) := by
  obtain ⟨directive, named⟩ := reference
  cases inColumn : tag.attribute? "col" with
  | none =>
    simp only [plan, directive, planValue, require, named, bound, inColumn, bind, Except.bind]
  | some column =>
    cases found : binding.row.get? column with
    | none =>
      simp only [plan, directive, planValue, require, named, bound, inColumn, found, bind,
        Except.bind]
    | some value =>
      simp only [found]
      exact plan_eq_ok_iff.mpr (.var directive named bound inColumn found)

/-- A renamed reference writes the same, or lacks the same. -/
theorem reference_matches (reference : tag.RefersTo name) (renames : σ.Renames name fresh τ)
    (children children' : List Node) :
    Matches (Diagnostic.SameUpToName name fresh)
      (yieldNode file store σ (.element tag children))
      (yieldNode file store τ (.element (tag.renameReference name fresh) children')) := by
  obtain ⟨binding, bound, bound'⟩ := renames.bound
  -- The new tag differs in the name of the variable alone.
  have isRenamed : tag.renameReference name fresh = tag.setAttribute "name" fresh :=
    if_pos reference
  have reference' : (tag.setAttribute "name" fresh).RefersTo fresh := by
    refine ⟨reference.1, ?_⟩
    rw [Tag.attribute?_setAttribute, reference.2, Option.map_some]
  have sameColumn : (tag.setAttribute "name" fresh).attribute? "col" = tag.attribute? "col" :=
    tag.attribute?_setAttribute_of_ne fresh (by decide)
  have sameTransform :
      (tag.setAttribute "name" fresh).attribute? "transform" = tag.attribute? "transform" :=
    tag.attribute?_setAttribute_of_ne fresh (by decide)
  have sameTransformed (value : String) :
      (tag.setAttribute "name" fresh).transformed value = tag.transformed value := by
    simp only [Tag.transformed, Tag.transform?, sameTransform]
  have sameUnknown :
      (tag.setAttribute "name" fresh).unknownTransform? = tag.unknownTransform? := by
    simp only [Tag.unknownTransform?, Tag.transform?, sameTransform]
  have planned := plan_of_refersTo store reference bound
  have planned' := plan_of_refersTo store reference' bound'
  simp only [sameColumn, sameTransformed, sameUnknown, Tag.name_setAttribute] at planned'
  rw [isRenamed]
  cases inColumn : tag.attribute? "col" with
  | none =>
    simp only [inColumn] at planned planned'
    rw [yieldNode_of_lacking planned, yieldNode_of_lacking planned']
    exact .ofProblem (.refl _)
  | some column =>
    simp only [inColumn] at planned planned'
    cases found : binding.row.get? column with
    | none =>
      simp only [found] at planned planned'
      rw [yieldNode_of_lacking planned, yieldNode_of_lacking planned']
      exact .ofProblem (.noSuchColumn column binding.table file tag.line)
    | some value =>
      simp only [found] at planned planned'
      rw [yieldNode_of_planned planned, yieldNode_of_planned planned']
      refine Action.fill_matches .refl renames.alike fun derive member => ?_
      simp [Action.rounds] at member

/-! ### Contents -/

/-- Inside an element that binds the old name again, the scopes differ in the new name alone. -/
theorem lookup_of_bound_again {action : Action} {derive : Scope → Scope}
    (member : derive ∈ action.rounds) (again : action.binder? = some name)
    (renames : σ.Renames name fresh τ) (other : String) (differs : other ≠ fresh) :
    (derive σ).lookup other = (derive τ).lookup other := by
  obtain ⟨bound, lookup⟩ := Action.lookup_of_mem_rounds member
  rw [lookup, lookup, again]
  by_cases same : name = other
  · simp [same]
  · simp [same, renames.others other (Ne.symm same) differs]

/-- Inside an element that binds neither name, the new name still stands for what the old one stands
for. -/
theorem renames_of_mem_rounds {action : Action} {derive : Scope → Scope}
    (member : derive ∈ action.rounds) (keepsOld : action.binder? ≠ some name)
    (keepsNew : action.binder? ≠ some fresh) (renames : σ.Renames name fresh τ) :
    (derive σ).Renames name fresh (derive τ) := by
  obtain ⟨bound, lookup⟩ := Action.lookup_of_mem_rounds member
  obtain ⟨binding, old, new⟩ := renames.bound
  refine ⟨Action.alike_of_mem_rounds member renames.alike, ⟨binding, ?_, ?_⟩, ?_⟩
  · rw [lookup, if_neg keepsOld, old]
  · rw [lookup, if_neg keepsNew, new]
  · intro other notOld notNew
    rw [lookup, lookup, renames.others other notOld notNew]

theorem rename_matches_of_forall
    (each : ∀ node ∈ nodes, Matches (Diagnostic.SameUpToName name fresh)
      (yieldNode file store σ node) (yieldNode file store τ (renameNode name fresh node))) :
    Matches (Diagnostic.SameUpToName name fresh) (yield file store σ nodes)
      (yield file store τ (rename name fresh nodes)) := by
  induction nodes with
  | nil =>
    rw [rename, yield_nil, yield_nil]
    exact .refl .refl _
  | cons node nodes ih =>
    rw [rename, yield_cons, yield_cons]
    have first := each node List.mem_cons_self
    have others := ih fun other member => each other (List.mem_cons_of_mem node member)
    exact first.append others

/-- What a node yields, its references being renamed in a scope where the new name stands for what
the old one stands for, is the same up to the name in some messages. -/
theorem renameNode_matches (node : Node) (renames : σ.Renames name fresh τ)
    (unused : fresh ∉ usedInNode node) :
    Matches (Diagnostic.SameUpToName name fresh) (yieldNode file store σ node)
      (yieldNode file store τ (renameNode name fresh node)) := by
  induction node generalizing σ τ with
  | text value line =>
    rw [renameNode, yieldNode_text, yieldNode_text]
    exact .of_agree .refl (renames.alike.written value)
  | element tag children ih =>
    obtain ⟨bindsOther, notReferred, unusedInside⟩ := not_mem_usedInNode_element.mp unused
    by_cases again : tag.binder? = some name
    · -- The references inside belong to this element, and nothing in it was renamed.
      have samePlan : plan store σ tag = plan store τ tag := by
        refine plan_congr fun other refers => ?_
        rw [refers.binder?_eq_none] at again
        cases again
      rw [renameNode, if_pos again]
      refine .of_agree .refl (yieldNode_element_agree renames.alike samePlan ?_)
      intro action planned derive member
      have bindsAgain := (binder?_of_planned planned).trans again
      exact yield_agree_of_unused (Action.alike_of_mem_rounds member renames.alike)
        (lookup_of_bound_again member bindsAgain renames) unusedInside
    · rw [renameNode, if_neg again]
      by_cases reference : tag.RefersTo name
      · exact reference_matches reference renames _ _
      · -- The element keeps its tag, and only its contents are renamed.
        rw [Tag.renameReference, if_neg reference]
        have samePlan : plan store σ tag = plan store τ tag := by
          refine plan_congr fun other refers => renames.others other ?_ ?_
          · rintro rfl
            exact reference refers
          · rintro rfl
            exact notReferred refers
        cases planned : plan store τ tag with
        | error problem =>
          rw [yieldNode_of_lacking (samePlan.trans planned), yieldNode_of_lacking planned]
          exact .refl .refl _
        | ok action =>
          rw [yieldNode_of_planned (samePlan.trans planned), yieldNode_of_planned planned]
          refine Action.fill_matches .refl renames.alike fun derive member => ?_
          refine rename_matches_of_forall fun child childMember => ?_
          refine ih child childMember (renames_of_mem_rounds member ?_ ?_ renames)
            (not_mem_usedInNode_of_mem unusedInside childMember)
          · rwa [binder?_of_planned planned]
          · rwa [binder?_of_planned planned]

/-- Renamed contents yield the same, up to the name in some messages. -/
theorem rename_matches (nodes : List Node) (renames : σ.Renames name fresh τ)
    (unused : fresh ∉ used nodes) :
    Matches (Diagnostic.SameUpToName name fresh) (yield file store σ nodes)
      (yield file store τ (rename name fresh nodes)) :=
  rename_matches_of_forall fun node member =>
    renameNode_matches node renames (not_mem_usedInNode_of_mem unused member)

/-! ### Expansions -/

/-- A scope in which the new name is bound to a row renames one in which the old name is. -/
theorem renames_bind (scope : Scope) (name fresh table : String) (row : Row) :
    (scope.bind name table row).Renames name fresh (scope.bind fresh table row) where
  alike := ⟨fun _ => ⟨rfl, rfl⟩, fun _ => ⟨rfl, rfl⟩⟩
  bound := ⟨⟨table, row⟩, by simp [Scope.lookup_bind], by simp [Scope.lookup_bind]⟩
  others other notOld notNew := by simp [Scope.lookup_bind, Ne.symm notOld, Ne.symm notNew]

/-- For every row of a table, contents yield the same with either name bound to it. -/
theorem rows_match (file : String) (store : Store) (scope : Scope) (table : Table)
    (name : String) (unused : fresh ∉ used nodes) :
    List.Forall₂ (Matches (Diagnostic.SameUpToName name fresh))
      (table.rows.map fun row => yield file store (scope.bind name table.name row) nodes)
      (table.rows.map fun row =>
        yield file store (scope.bind fresh table.name row) (rename name fresh nodes)) := by
  rw [List.forall₂_map_left_iff, List.forall₂_map_right_iff, List.forall₂_same]
  intro row _
  exact rename_matches nodes (renames_bind scope name fresh table.name row) unused

theorem requireTable_setAttribute (tag : Tag) (fresh : String) :
    requireTable store (tag.setAttribute "var" fresh) = requireTable store tag := by
  have sameTable : (tag.setAttribute "var" fresh).attribute? "table" = tag.attribute? "table" :=
    tag.attribute?_setAttribute_of_ne fresh (by decide)
  simp only [requireTable, require, sameTable, Tag.name_setAttribute]

/-- Two actions over the same rows, of which each binds its own name to them. -/
inductive RepeatsUnder (name fresh : String) : Action → Action → Prop where
  | expansion (table : Table) :
    RepeatsUnder name fresh (.repeatRows table name) (.repeatRows table fresh)
  | array (array : String) (table : Table) :
    RepeatsUnder name fresh (.array array table name) (.array array table fresh)

/-- What an expansion lacks does not depend on the name that it binds, and neither do its rows. -/
theorem plan_corresponds_of_binds (fresh : String) (store : Store) (scope : Scope)
    (expands : tag.name = "expand" ∨ tag.name = "expand_data")
    (binds : tag.attribute? "var" = some name) :
    Corresponds (RepeatsUnder name fresh) (plan store scope tag)
      (plan store scope (tag.setAttribute "var" fresh)) := by
  have named : require tag "var" = .ok name := require_eq_ok_iff.mpr binds
  have namedFresh : require (tag.setAttribute "var" fresh) "var" = .ok fresh := by
    rw [require_eq_ok_iff, Tag.attribute?_setAttribute, binds, Option.map_some]
  have sameTable := (requireTable_setAttribute tag fresh : requireTable store _ = _)
  have sameName : require (tag.setAttribute "var" fresh) "name" = require tag "name" := by
    simp only [require, tag.attribute?_setAttribute_of_ne fresh (by decide : "name" ≠ "var"),
      Tag.name_setAttribute]
  have same {α : Type} (x : Except Problem α) : Corresponds Eq x x := .refl (fun _ => rfl) x
  rcases expands with isExpand | isArray
  · have directive : Directive.ofTag? tag.name = some .expand :=
      Directive.ofTag?_eq_some_iff.mpr isExpand
    simp only [plan, Tag.name_setAttribute, directive, sameTable, named, namedFresh]
    refine (same (requireTable store tag)).bind ?_
    rintro table _ rfl
    exact .ok (.expansion table)
  · have directive : Directive.ofTag? tag.name = some .expandData :=
      Directive.ofTag?_eq_some_iff.mpr isArray
    simp only [plan, Tag.name_setAttribute, directive, sameName, sameTable, named, namedFresh]
    refine (same (require tag "name")).bind ?_
    rintro array _ rfl
    refine (same (requireTable store tag)).bind ?_
    rintro table _ rfl
    exact .ok (.array array table)

/-- A renamed expansion yields the same, up to the name in some messages. -/
theorem expansion_matches (file : String) (store : Store) (scope : Scope)
    (expands : tag.name = "expand" ∨ tag.name = "expand_data")
    (binds : tag.attribute? "var" = some name) (unused : fresh ∉ used nodes) :
    Matches (Diagnostic.SameUpToName name fresh)
      (yieldNode file store scope (.element tag nodes))
      (yieldNode file store scope
        (.element (tag.setAttribute "var" fresh) (rename name fresh nodes))) := by
  have plans := plan_corresponds_of_binds fresh store scope expands binds
  generalize planned : plan store scope tag = result,
    planned' : plan store scope (tag.setAttribute "var" fresh) = result' at plans
  cases plans with
  | error problem =>
    rw [yieldNode_of_lacking planned, yieldNode_of_lacking planned']
    exact .refl .refl _
  | ok repeats =>
    rw [yieldNode_of_planned planned, yieldNode_of_planned planned']
    cases repeats with
    | expansion table =>
      rw [Action.fill_repeatRows, Action.fill_repeatRows]
      exact (Matches.refl .refl _).intersperse (rows_match file store scope table name unused)
    | array array table =>
      rw [Action.fill_array, Action.fill_array]
      have items := rows_match file store (scope.onlySource.withSeparator itemSeparator) table
        name unused
      have between : Matches (Diagnostic.SameUpToName name fresh)
          (scope.onlySource.written itemSeparator) (scope.onlySource.written itemSeparator) :=
        .refl .refl _
      exact (Matches.refl .refl _).append
        ((between.intersperse items).append (.refl .refl _))

/-- **Names of variables can be changed.** An element that binds `name` to the rows of a table, be
it as an expansion or as an array, adds the same to both streams if it binds a name instead that its
contents do not use, and the references to its variable have that name. It reports the same
problems at the same places in the same order; only where a reference is to a column that there is
not does the message have the other name. This holds whatever the names stand for outside. -/
theorem expandNode_rename (file : String) (store : Store) (scope : Scope) (tag : Tag)
    (body : List Node) (name fresh : String) (out : Streams)
    (expands : tag.name = "expand" ∨ tag.name = "expand_data")
    (binds : tag.attribute? "var" = some name) (unused : fresh ∉ used body) :
    let renamed : Node := .element (tag.setAttribute "var" fresh) (rename name fresh body)
    (expandNode file store scope renamed out).1 =
        (expandNode file store scope (.element tag body) out).1 ∧
      List.Forall₂ (Diagnostic.SameUpToName name fresh)
        (expandNode file store scope (.element tag body) out).2
        (expandNode file store scope renamed out).2 := by
  intro renamed
  have same := expansion_matches file store scope expands binds unused
  rw [emits_expandNode file store scope renamed out, emits_expandNode file store scope _ out]
  refine ⟨?_, same.diagnostics⟩
  simp only [onto, renamed, same.header, same.source]

end Template

namespace Sample

/-- Contents that refer to `d`, also where there is no such column, and bind `d` again. -/
def layers : List Node :=
  [.element ⟨"var", [("name", "d"), ("col", "name")], 10⟩ [],
   .element ⟨"var", [("name", "d"), ("col", "shade")], 11⟩ [],
   .element ⟨"expand", [("table", "Color"), ("var", "d")], 12⟩
    [.element ⟨"var", [("name", "d"), ("col", "hex")], 12⟩ [],
     .element ⟨"var", [("name", "c"), ("col", "name")], 12⟩ []]]

/-- The same contents, with references to `e` in place of those to `d` that are not below the
element that binds `d` again. -/
def renamedLayers : List Node :=
  [.element ⟨"var", [("name", "e"), ("col", "name")], 10⟩ [],
   .element ⟨"var", [("name", "e"), ("col", "shade")], 11⟩ [],
   .element ⟨"expand", [("table", "Color"), ("var", "d")], 12⟩
    [.element ⟨"var", [("name", "d"), ("col", "hex")], 12⟩ [],
     .element ⟨"var", [("name", "c"), ("col", "name")], 12⟩ []]]

/-- An array over the colours, with the variable `d`. -/
def arrayTag : Tag := ⟨"expand_data", [("name", "n"), ("table", "Color"), ("var", "d")], 9⟩

/-- The array with the variable `e`. -/
def renamedArrayTag : Tag := ⟨"expand_data", [("name", "n"), ("table", "Color"), ("var", "e")], 9⟩

/-- A scope in which both `d` and `e` are bound. -/
def crowded : Scope :=
  { bindings := [("d", ⟨"Other", ⟨[("name", "?")], 3⟩⟩), ("e", ⟨"Other", ⟨[], 4⟩⟩)] }

end Sample

namespace Template

theorem expandNode_rename_layers :
    "e" ∉ used Sample.layers ∧
      (expandNode "a.xml" Sample.store Sample.crowded
          (.element Sample.renamedArrayTag Sample.renamedLayers) {}).1 =
        (expandNode "a.xml" Sample.store Sample.crowded
          (.element Sample.arrayTag Sample.layers) {}).1 ∧
      List.Forall₂ (Diagnostic.SameUpToName "d" "e")
        (expandNode "a.xml" Sample.store Sample.crowded
          (.element Sample.arrayTag Sample.layers) {}).2
        (expandNode "a.xml" Sample.store Sample.crowded
          (.element Sample.renamedArrayTag Sample.renamedLayers) {}).2 := by
  have unused : "e" ∉ used Sample.layers := by decide
  have same := expandNode_rename "a.xml" Sample.store Sample.crowded Sample.arrayTag Sample.layers
    "d" "e" {} (.inr rfl) rfl unused
  exact ⟨unused, same⟩

end Template

end Stencil
