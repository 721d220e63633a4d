import Stencil.Proofs.Template.Independence

/-!
# Expanding is unrolling

An expansion can be carried out on paper: write its contents once per row, with the values of the
row in place of the references to its variable, and the separator in between. An expansion inside
that binds the same variable again keeps its references. A reference that cannot be replaced, for
want of a column, is left out.

## Main definitions

* `Template.replace`: nodes in which the references to a variable are replaced
* `Template.references`: the references that are replaced
* `Template.instantiate`: nodes with the values of a row in place of the references to a variable
* `Template.unroll`: the contents of an expansion, written once per row

## Main results

* `Template.instantiate_agree`: binding a variable to a row and instantiating it come to the same
* `Template.expandNode_eq_expand_unroll`: so do carrying out an expansion and unrolling it
-/

namespace Stencil

open Markup Generated

/-- The value that an element writes in a row: that of the column it names. -/
def Row.valueFor? (row : Row) (tag : Tag) : Option String :=
  (tag.attribute? "col").bind row.get?

/-- The row has a value for the element, and the element asks for no transform that does not
exist. -/
def Row.Fits (row : Row) (tag : Tag) : Prop :=
  (row.valueFor? tag).isSome ∧ tag.unknownTransform? = none

instance (row : Row) (tag : Tag) : Decidable (row.Fits tag) :=
  inferInstanceAs (Decidable (_ ∧ _))

namespace Template

mutual

/-- A node in which the references to a variable are replaced. -/
def replaceNode (name : String) (replacement : Tag → List Node → List Node) : Node → List Node
  | .text value line => [.text value line]
  | .element tag children =>
    if tag.RefersTo name then replacement tag children
    else if tag.binder? = some name then [.element tag children]
    else [.element tag (replace name replacement children)]
termination_by structural node => node

/-- Nodes in which the references to a variable are replaced, those excepted for which it is bound
again. -/
def replace (name : String) (replacement : Tag → List Node → List Node) : List Node → List Node
  | [] => []
  | node :: nodes => replaceNode name replacement node ++ replace name replacement nodes
termination_by structural nodes => nodes

end

mutual

/-- The references to a variable in a node. -/
def referencesInNode (name : String) : Node → List Tag
  | .text _ _ => []
  | .element tag children =>
    if tag.RefersTo name then [tag]
    else if tag.binder? = some name then []
    else references name children
termination_by structural node => node

/-- The references to a variable in nodes, those excepted for which it is bound again. -/
def references (name : String) : List Node → List Tag
  | [] => []
  | node :: nodes => referencesInNode name node ++ references name nodes
termination_by structural nodes => nodes

end

theorem mem_references_of_mem {name : String} {tag : Tag} {node : Node} {nodes : List Node}
    (member : node ∈ nodes) (inNode : tag ∈ referencesInNode name node) :
    tag ∈ references name nodes := by
  induction nodes with
  | nil => simp at member
  | cons first nodes ih =>
    rw [references, List.mem_append]
    rcases List.mem_cons.mp member with rfl | later
    · exact .inl inNode
    · exact .inr (ih later)

/-- What stands for a reference in a row: the text it writes, or nothing if the row has no value
for it. -/
def valueIn (row : Row) (tag : Tag) : List Node :=
  match row.valueFor? tag with
  | some value => [.text (tag.transformed value) tag.line]
  | none => []

/-- Nodes with the values of a row in place of the references to a variable. -/
def instantiate (name : String) (row : Row) (nodes : List Node) : List Node :=
  replace name (fun tag _ => valueIn row tag) nodes

/-- Nodes written once per row, with the values of the row in place of the references to a
variable and a separator in between. -/
def unroll (name : String) (separator : Node) (rows : List Row) (nodes : List Node) : List Node :=
  ((rows.map fun row => instantiate name row nodes).intersperse [separator]).flatten

end Template

/-- The scope `σ` is like `τ`, except that in it a variable stands for a row. -/
structure Scope.Instantiates (name : String) (row : Row) (σ τ : Scope) : Prop where
  alike : ∀ {inHeader inSource : Prop}, Alike inHeader inSource σ τ
  bound : ∃ table, σ.lookup name = some ⟨table, row⟩
  others : ∀ other, other ≠ name → σ.lookup other = τ.lookup other

namespace Template

variable {inHeader inSource inDiagnostics : Prop} {file : String} {store : Store} {σ τ : Scope}
  {name : String} {row : Row} {tag : Tag} {node : Node} {nodes : List Node}

/-- A reference to a variable that stands for a row can be carried out if the row has a value for
it, and writes that. -/
theorem plan_reference_eq_ok_iff (store : Store) (action : Action)
    (reference : tag.RefersTo name) {table : String} (bound : σ.lookup name = some ⟨table, row⟩) :
    plan store σ tag = .ok action ↔
      ∃ value, row.valueFor? tag = some value ∧
        .writeValue (tag.transformed value) tag.unknownTransform? = action := by
  simp only [plan, reference.1, planValue_eq_ok_iff, reference.2, bound, Option.some.injEq,
    exists_eq_left', Row.valueFor?, Option.bind_eq_some_iff]
  constructor
  · rintro ⟨column, inColumn, value, found, same⟩
    exact ⟨value, ⟨column, inColumn, found⟩, same⟩
  · rintro ⟨value, ⟨column, inColumn, found⟩, same⟩
    exact ⟨column, inColumn, value, found, same⟩

/-- What a reference yields agrees with what stands for it. -/
theorem reference_agree {children : List Node} (reference : tag.RefersTo name)
    (instantiates : σ.Instantiates name row τ) (fits : inDiagnostics → row.Fits tag) :
    Agree inHeader inSource inDiagnostics (yieldNode file store σ (.element tag children))
      (yield file store τ (valueIn row tag)) := by
  obtain ⟨table, bound⟩ := instantiates.bound
  have carriedOut (action : Action) := plan_reference_eq_ok_iff store action reference bound
  cases found : row.valueFor? tag with
  | none =>
    -- The element fails and nothing stands for it: the streams agree, the problems need not.
    have unfit : inDiagnostics → False := fun asked => by simpa [found] using (fits asked).1
    simp only [valueIn, found, yield_nil]
    cases planned : plan store σ tag with
    | ok action => simpa [found] using (carriedOut action).mp planned
    | error problem =>
      rw [yieldNode_of_lacking planned, ← append_empty (ofProblem _)]
      exact ((Agree.refl _).ofProblem_append _).mono unfit
  | some value =>
    have planned := (carriedOut _).mpr ⟨value, found, rfl⟩
    rw [yieldNode_of_planned planned, Action.fill_writeValue]
    simp only [valueIn, found, yield_cons, yieldNode_text, yield_nil, append_empty]
    cases unknown : tag.unknownTransform? with
    | none => exact instantiates.alike.written _
    | some transform =>
      -- The value is written as it is, but with a warning that a text does not give.
      have unfit : inDiagnostics → False := fun asked => by simpa [unknown] using (fits asked).2
      exact ((instantiates.alike.written _).ofProblem_append _).mono unfit

/-- Variables seen inside an element that binds the variable are the same, whatever it stood for
outside. -/
theorem lookup_of_rebound {action : Action} {derive : Scope → Scope}
    (member : derive ∈ action.rounds) (rebound : action.binder? = some name)
    (instantiates : σ.Instantiates name row τ) (other : String) :
    (derive σ).lookup other = (derive τ).lookup other := by
  obtain ⟨bound, lookup⟩ := Action.lookup_of_mem_rounds member
  rw [lookup, lookup, rebound]
  by_cases same : name = other
  · simp [same]
  · simp [same, instantiates.others other (Ne.symm same)]

/-- Inside an element that does not bind the variable, it still stands for the row. -/
theorem instantiates_of_mem_rounds {action : Action} {derive : Scope → Scope}
    (member : derive ∈ action.rounds) (kept : action.binder? ≠ some name)
    (instantiates : σ.Instantiates name row τ) :
    (derive σ).Instantiates name row (derive τ) := by
  obtain ⟨bound, lookup⟩ := Action.lookup_of_mem_rounds member
  obtain ⟨table, standsFor⟩ := instantiates.bound
  refine ⟨Action.alike_of_mem_rounds member instantiates.alike, ⟨table, ?_⟩, fun other ne => ?_⟩
  · rw [lookup, if_neg kept, standsFor]
  · rw [lookup, lookup, instantiates.others other ne]

theorem instantiate_agree_of_forall
    (agree : ∀ node ∈ nodes, Agree inHeader inSource inDiagnostics
      (yieldNode file store σ node)
      (yield file store τ (replaceNode name (fun tag _ => valueIn row tag) node))) :
    Agree inHeader inSource inDiagnostics (yield file store σ nodes)
      (yield file store τ (instantiate name row nodes)) := by
  induction nodes with
  | nil => simpa only [instantiate, replace, yield_nil] using Agree.refl _
  | cons node nodes ih =>
    have first := agree node List.mem_cons_self
    have rest := ih fun other member => agree other (List.mem_cons_of_mem node member)
    simpa only [instantiate, replace, yield_cons, yield_append] using first.append rest

/-- Expanding a node with a variable bound to a row yields what its instance yields, and reports the
same if the row fits all references. -/
theorem replaceNode_agree (node : Node) (instantiates : σ.Instantiates name row τ)
    (fits : inDiagnostics → ∀ tag ∈ referencesInNode name node, row.Fits tag) :
    Agree inHeader inSource inDiagnostics (yieldNode file store σ node)
      (yield file store τ (replaceNode name (fun tag _ => valueIn row tag) node)) := by
  -- Below an element that binds the variable again, the scopes have the same variables and the
  -- contents are untouched. Below any other, they are again related by the row.
  induction node generalizing σ τ with
  | text value line =>
    simpa only [replaceNode, yield_cons, yieldNode_text, yield_nil, append_empty] using
      instantiates.alike.written value
  | element tag children ih =>
    by_cases reference : tag.RefersTo name
    · simp only [replaceNode, referencesInNode, if_pos reference] at fits ⊢
      exact reference_agree reference instantiates fun asked => fits asked tag List.mem_cons_self
    · have samePlan : plan store σ tag = plan store τ tag := by
        refine plan_congr fun other refers => instantiates.others other ?_
        rintro rfl
        exact reference refers
      by_cases rebound : tag.binder? = some name
      · simp only [replaceNode, if_neg reference, if_pos rebound, yield_cons, yield_nil,
          append_empty]
        refine yieldNode_element_agree instantiates.alike samePlan ?_
        intro action planned derive member
        have bindsAgain := (binder?_of_planned planned).trans rebound
        exact yield_agree children (Action.alike_of_mem_rounds member instantiates.alike)
          (lookup_of_rebound member bindsAgain instantiates)
      · simp only [replaceNode, referencesInNode, if_neg reference, if_neg rebound, yield_cons,
          yield_nil, append_empty] at fits ⊢
        refine yieldNode_element_agree instantiates.alike samePlan ?_
        intro action planned derive member
        have kept : action.binder? ≠ some name := by
          rwa [binder?_of_planned planned]
        refine instantiate_agree_of_forall fun child childMember => ?_
        refine ih child childMember (instantiates_of_mem_rounds member kept instantiates) ?_
        intro asked other inChild
        exact fits asked other (mem_references_of_mem childMember inChild)

/-- Expanding with a variable bound to a row yields what the instance yields, and reports the same
if the row fits all references. -/
theorem instantiate_agree (nodes : List Node) (instantiates : σ.Instantiates name row τ)
    (fits : inDiagnostics → ∀ tag ∈ references name nodes, row.Fits tag) :
    Agree inHeader inSource inDiagnostics (yield file store σ nodes)
      (yield file store τ (instantiate name row nodes)) :=
  instantiate_agree_of_forall fun node member =>
    replaceNode_agree node instantiates fun asked tag inNode =>
      fits asked tag (mem_references_of_mem member inNode)

/-- A scope in which a variable is bound to a row instantiates the scope around it. -/
theorem instantiates_bind (scope : Scope) (name table : String) (row : Row) :
    (scope.bind name table row).Instantiates name row scope where
  alike := ⟨fun _ => ⟨rfl, rfl⟩, fun _ => ⟨rfl, rfl⟩⟩
  bound := ⟨table, by simp [Scope.lookup_bind]⟩
  others other ne := by simp [Scope.lookup_bind, Ne.symm ne]

theorem unroll_cons_cons (separator : Node) (row next : Row) (rows : List Row) :
    unroll name separator (row :: next :: rows) nodes =
      instantiate name row nodes ++ separator :: unroll name separator (next :: rows) nodes := by
  simp [unroll]

theorem yield_unroll (scope : Scope) (separator : String) (line : Nat) (rows : List Row) :
    yield file store scope (unroll name (.text separator line) rows nodes) =
      (scope.written separator).intersperse
        (rows.map fun row => yield file store scope (instantiate name row nodes)) := by
  induction rows with
  | nil => simp [unroll]
  | cons row rows ih =>
    cases rows with
    | nil => simp [unroll]
    | cons next rows =>
      rw [unroll_cons_cons, yield_append, yield_cons, yieldNode_text, ih]
      rfl

/-- **Expanding is unrolling.** An `expand` element that binds `name` to the rows of a stored table
adds to both streams what its unrolled contents add in the same scope. It reports the same, too, if
all rows fit all references: none is left out, and none asks for a transform that does not exist. -/
theorem expandNode_eq_expand_unroll (file : String) (store : Store) (scope : Scope) (tag : Tag)
    (body : List Node) (name tableName : String) (table : Table) (out : Streams)
    (expands : tag.name = "expand") (binds : tag.attribute? "var" = some name)
    (reads : tag.attribute? "table" = some tableName) (stored : store.get? tableName = some table) :
    (expandNode file store scope (.element tag body) out).1 =
        (expand file store scope
          (unroll name (.text scope.separator tag.line) table.rows body) out).1 ∧
      ((∀ row ∈ table.rows, ∀ reference ∈ references name body, row.Fits reference) →
        (expandNode file store scope (.element tag body) out).2 =
          (expand file store scope
            (unroll name (.text scope.separator tag.line) table.rows body) out).2) := by
  have directive : Directive.ofTag? tag.name = some .expand :=
    Directive.ofTag?_eq_some_iff.mpr expands
  have planned : plan store scope tag = .ok (.repeatRows table name) :=
    plan_eq_ok_iff.mpr (.expand directive reads stored binds)
  have agree : Agree True True
      (∀ row ∈ table.rows, ∀ reference ∈ references name body, row.Fits reference)
      (yieldNode file store scope (.element tag body))
      (yield file store scope (unroll name (.text scope.separator tag.line) table.rows body)) := by
    -- Both sides now have one piece per row, with the same text in between.
    rw [yieldNode_of_planned planned, Action.fill_repeatRows, yield_unroll]
    refine (Agree.refl _).intersperse fun row member => ?_
    exact instantiate_agree body (instantiates_bind scope name table.name row) fun fits =>
      fits row member
  rw [emits_expandNode file store scope _ out, emits_expand file store scope _ out]
  simp only [onto, agree.header trivial, agree.source trivial, true_and]
  exact agree.diagnostics

end Template

namespace Sample

/-- The table of colours. -/
def table : Table := (Table.load "colors.xml" colors).1

/-- An expansion over the colours. -/
def overColors : Tag := ⟨"expand", [("table", "Color"), ("var", "d")], 9⟩

/-- Contents that refer to `c` and `d`, and bind `d` again. -/
def shades : List Node :=
  [.element ⟨"var", [("name", "c"), ("col", "name")], 10⟩ [], .text "/" 10,
   .element ⟨"header", [], 11⟩
    [.element ⟨"var", [("name", "d"), ("col", "hex"), ("transform", "string")], 11⟩ []],
   .element overColors [.element ⟨"var", [("name", "d"), ("col", "name")], 12⟩ []]]

end Sample

namespace Template

theorem expandNode_eq_expand_unroll_colors :
    Sample.store.get? "Color" = some Sample.table ∧
      (∀ row ∈ Sample.table.rows, ∀ reference ∈ references "d" Sample.shades,
        row.Fits reference) ∧
      expandNode "a.xml" Sample.store Sample.wide (.element Sample.overColors Sample.shades) {} =
        expand "a.xml" Sample.store Sample.wide
          (unroll "d" (.text "; " 9) Sample.table.rows Sample.shades) {} := by
  have stored : Sample.store.get? "Color" = some Sample.table := rfl
  have fits : ∀ row ∈ Sample.table.rows, ∀ reference ∈ references "d" Sample.shades,
      row.Fits reference := by decide
  have same := expandNode_eq_expand_unroll "a.xml" Sample.store Sample.wide Sample.overColors
    Sample.shades "d" "Color" Sample.table {} rfl rfl rfl stored
  exact ⟨stored, fits, Prod.ext same.1 (same.2 fits)⟩

end Template

end Stencil
