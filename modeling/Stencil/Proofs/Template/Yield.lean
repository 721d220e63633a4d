import Stencil.Proofs.Generate.Generated

/-!
# What expanding yields

Expanding reads neither of the two streams: whatever they hold, the same text is added to each of
them and the same problems are reported. So an emission is known by one result, that on empty
streams, and what a template yields can be computed with the algebra of results alone. An action
yields text in front, then its contents once per round with text between rounds, then text at the
end; of all later facts about expanding, none looks at emissions again.

## Main definitions

* `Emission.Emits`: the emission adds a given result, whatever the streams hold
* `Template.yield`, `Template.yieldNode`: what nodes and a node yield in a scope
* `Action.rounds`, `Action.before`, `Action.between`, `Action.after`: the pieces of what an action
  yields
* `Action.fill`: what an action yields around given contents

## Main results

* `Template.emits_expand`: expanding adds what the nodes yield
* `Template.yieldNode_of_planned`: what a carried out element yields
* `Template.expand_append`: expanding only adds to the streams, and composes
-/

namespace Stencil

open Markup

/-- What writing in a scope adds to the streams. -/
def Scope.written (scope : Scope) (text : String) : Generated where
  header := if scope.target.writesHeader then text else ""
  source := if scope.target.writesSource then text else ""

theorem Scope.written_onlyHeader (scope : Scope) (text : String) :
    scope.onlyHeader.written text = { header := text } := rfl

theorem Scope.written_onlySource (scope : Scope) (text : String) :
    scope.onlySource.written text = { source := text } := rfl

namespace Generated

/-- The streams with a result added, and the problems it reports. -/
def onto (g : Generated) (out : Streams) : Streams × Diagnostics :=
  (⟨out.header ++ g.header, out.source ++ g.source⟩, g.diagnostics)

end Generated

namespace Emission

variable {first second between emission : Emission} {g h : Generated}

/-- The emission adds the result `g`, whatever the streams hold. -/
def Emits (emission : Emission) (g : Generated) : Prop := ∀ out, emission out = g.onto out

/-- What an emission makes of empty streams. -/
def yield (emission : Emission) : Generated :=
  ⟨(emission {}).1.header, (emission {}).1.source, (emission {}).2⟩

theorem Emits.yield_eq (emits : Emits emission g) : emission.yield = g := by
  simp [yield, emits {}, Generated.onto]

theorem emits_nothing : Emits nothing {} := by
  intro out
  simp [nothing, Generated.onto]

theorem emits_write (scope : Scope) (text : String) :
    Emits (write scope text) (scope.written text) := by
  intro out
  simp only [write, Scope.write, Scope.written, Generated.onto]
  congr 2 <;> split <;> simp

theorem emits_report (problem : Diagnostic) : Emits (report problem) (.ofProblem problem) := by
  intro out
  simp [report, Generated.ofProblem, Generated.onto]

theorem Emits.andThen (emitsFirst : Emits first g) (emitsSecond : Emits second h) :
    Emits (first.andThen second) (g ++ h) := by
  intro out
  simp [Emission.andThen, emitsFirst out, emitsSecond _, Generated.onto, String.append_assoc]

theorem Emits.intersperse {α : Type} {l : List α} {emissionOf : α → Emission}
    {yieldOf : α → Generated} (emitsBetween : Emits between g)
    (emits : ∀ a ∈ l, Emits (emissionOf a) (yieldOf a)) :
    Emits (intersperse between (l.map emissionOf)) (g.intersperse (l.map yieldOf)) := by
  induction l with
  | nil => exact emits_nothing
  | cons a l ih =>
    have first := emits a List.mem_cons_self
    have rest := ih fun b member => emits b (List.mem_cons_of_mem a member)
    -- What is in between is emitted only if another one follows.
    cases l with
    | nil => exact first
    | cons b l => exact first.andThen (emitsBetween.andThen rest)

end Emission

/-! ### What an action yields -/

namespace Action

variable {file : String} {line : Nat} {scope : Scope}

/-- The scopes in which an action expands its contents, one after the other, each as derived from
the scope around the action. -/
def rounds : Action → List (Scope → Scope)
  | retarget target => [fun scope => scope.withTarget target]
  | repeatRows table name => table.rows.map fun row scope => scope.bind name table.name row
  | writeValue _ _ => []
  | enumeration _ => [Scope.onlyHeader]
  | array _ table binder => table.rows.map fun row scope =>
      (scope.onlySource.withSeparator Template.itemSeparator).bind binder table.name row

/-- What an action yields before its contents. -/
def before (file : String) (line : Nat) (scope : Scope) : Action → Generated
  | retarget _ | repeatRows _ _ => {}
  | writeValue value none => scope.written value
  | writeValue value (some unknown) =>
    .ofProblem ((Problem.noSuchTransform unknown).reportAt file line) ++ scope.written value
  | enumeration name => scope.onlyHeader.written (Template.enumerationStart name)
  | array name table _ =>
    scope.onlyHeader.written (Template.arrayDeclaration name table.rows.length) ++
      scope.onlySource.written (Template.arrayStart name table.rows.length)

/-- What an action yields between two rounds. -/
def between (scope : Scope) : Action → Generated
  | repeatRows _ _ => scope.written scope.separator
  | array _ _ _ => scope.onlySource.written Template.itemSeparator
  | retarget _ | writeValue _ _ | enumeration _ => {}

/-- What an action yields after its contents. -/
def after (scope : Scope) : Action → Generated
  | retarget _ | repeatRows _ _ | writeValue _ _ => {}
  | enumeration _ => scope.onlyHeader.written Template.blockEnd
  | array _ _ _ => scope.onlySource.written Template.blockEnd

/-- What an action yields if its contents yield `contents` in each of its rounds. -/
def fill (file : String) (line : Nat) (scope : Scope) (action : Action)
    (contents : Scope → Generated) : Generated :=
  action.before file line scope ++
    ((action.between scope).intersperse (action.rounds.map fun derive => contents (derive scope)) ++
      action.after scope)

theorem fill_retarget (target : Target) (contents : Scope → Generated) :
    (retarget target).fill file line scope contents = contents (scope.withTarget target) := by
  simp [fill, rounds, before, after]

theorem fill_repeatRows (table : Table) (name : String) (contents : Scope → Generated) :
    (repeatRows table name).fill file line scope contents =
      (scope.written scope.separator).intersperse
        (table.rows.map fun row => contents (scope.bind name table.name row)) := by
  simp [fill, rounds, before, between, after, Function.comp_def]

theorem fill_array (name : String) (table : Table) (binder : String)
    (contents : Scope → Generated) :
    (array name table binder).fill file line scope contents =
      (array name table binder).before file line scope ++
        ((scope.onlySource.written Template.itemSeparator).intersperse
            (table.rows.map fun row => contents
              ((scope.onlySource.withSeparator Template.itemSeparator).bind
                binder table.name row)) ++
          scope.onlySource.written Template.blockEnd) := by
  simp [fill, rounds, between, after, Function.comp_def]

theorem fill_enumeration (name : String) (contents : Scope → Generated) :
    (enumeration name).fill file line scope contents =
      scope.onlyHeader.written (Template.enumerationStart name) ++
        (contents scope.onlyHeader ++ scope.onlyHeader.written Template.blockEnd) := by
  simp [fill, rounds, before, after]

theorem fill_writeValue (value : String) (unknown : Option String)
    (contents : Scope → Generated) :
    (writeValue value unknown).fill file line scope contents =
      (writeValue value unknown).before file line scope := by
  simp [fill, rounds, after]

end Action

namespace Template

variable {file : String} {store : Store} {scope : Scope} {tag : Tag} {node : Node}
  {nodes children : List Node} {action : Action} {problem : Problem}

/-- What a node yields in a scope. -/
def yieldNode (file : String) (store : Store) (scope : Scope) (node : Node) : Generated :=
  (expandNode file store scope node).yield

/-- What nodes yield in a scope. -/
def yield (file : String) (store : Store) (scope : Scope) (nodes : List Node) : Generated :=
  (expand file store scope nodes).yield

theorem emits_expandNode_text (file : String) (store : Store) (scope : Scope) (value : String)
    (line : Nat) :
    (expandNode file store scope (.text value line)).Emits (scope.written value) := by
  simpa only [expandNode] using Emission.emits_write scope value

theorem emits_expandNode_of_lacking (file : String) (children : List Node)
    (lacking : plan store scope tag = .error problem) :
    (expandNode file store scope (.element tag children)).Emits
      (.ofProblem (problem.reportAt file tag.line)) := by
  simp only [expandNode, lacking]
  exact Emission.emits_report _

theorem emits_emitRows (scope : Scope) (table : Table) {body : Row → Emission}
    {yieldOf : Row → Generated}
    (emits : ∀ row, (body row).Emits (yieldOf row)) :
    (emitRows scope table body).Emits
      ((scope.written scope.separator).intersperse (table.rows.map yieldOf)) :=
  (Emission.emits_write scope scope.separator).intersperse fun row _ => emits row

/-- An action emits what it yields, if its contents do. -/
theorem emits_expandNode_of_planned (file : String) (planned : plan store scope tag = .ok action)
    (contents : Scope → Generated)
    (emits : ∀ inside, (expand file store inside children).Emits (contents inside)) :
    (expandNode file store scope (.element tag children)).Emits
      (action.fill file tag.line scope contents) := by
  simp only [expandNode, planned]
  cases action with
  | retarget target =>
    rw [Action.fill_retarget]
    exact emits (scope.withTarget target)
  | repeatRows table name =>
    rw [Action.fill_repeatRows]
    exact emits_emitRows scope table fun row => emits (scope.bind name table.name row)
  | writeValue value unknown =>
    rw [Action.fill_writeValue]
    have written := Emission.emits_write scope value
    cases unknown with
    | none => exact written
    | some unknown => exact (Emission.emits_report _).andThen written
  | enumeration name =>
    rw [Action.fill_enumeration]
    have start := Emission.emits_write scope.onlyHeader (enumerationStart name)
    have finish := Emission.emits_write scope.onlyHeader blockEnd
    exact start.andThen ((emits scope.onlyHeader).andThen finish)
  | array name table binder =>
    -- The text between items is the separator of their own scope, whatever the one around has.
    let inside := scope.onlySource.withSeparator itemSeparator
    let size := table.rows.length
    have declaration := Emission.emits_write scope.onlyHeader (arrayDeclaration name size)
    have start := Emission.emits_write scope.onlySource (arrayStart name size)
    have items := emits_emitRows inside table fun row =>
      emits (inside.bind binder table.name row)
    have finish := Emission.emits_write scope.onlySource blockEnd
    rw [Action.fill_array, Action.before, Generated.append_assoc]
    exact declaration.andThen (start.andThen (items.andThen finish))

/-- Expanding nodes adds what the nodes yield, if that holds of each of them. -/
theorem emits_expand_of_forall
    (emits : ∀ node ∈ nodes, (expandNode file store scope node).Emits
      (yieldNode file store scope node)) :
    (expand file store scope nodes).Emits (yield file store scope nodes) := by
  induction nodes with
  | nil =>
    have nothing : (expand file store scope []).Emits {} := by
      simpa only [expand] using Emission.emits_nothing
    rwa [yield, nothing.yield_eq]
  | cons node nodes ih =>
    have first := emits node List.mem_cons_self
    have rest := ih fun other member => emits other (List.mem_cons_of_mem node member)
    have both : (expand file store scope (node :: nodes)).Emits
        (yieldNode file store scope node ++ yield file store scope nodes) := by
      simpa only [expand] using first.andThen rest
    rwa [yield, both.yield_eq]

/-- Expanding a node adds what the node yields. -/
theorem emits_expandNode (file : String) (store : Store) (scope : Scope) (node : Node) :
    (expandNode file store scope node).Emits (yieldNode file store scope node) := by
  -- The scopes of the contents are derived from this one, so the claim is for all scopes at once.
  induction node generalizing scope with
  | text value line =>
    have written := emits_expandNode_text file store scope value line
    rwa [yieldNode, written.yield_eq]
  | element tag children ih =>
    cases planned : plan store scope tag with
    | error problem =>
      have reported := emits_expandNode_of_lacking file children planned
      rwa [yieldNode, reported.yield_eq]
    | ok action =>
      have filled := emits_expandNode_of_planned file planned _ fun inside =>
        emits_expand_of_forall fun child member => ih child member inside
      rwa [yieldNode, filled.yield_eq]

/-- Expanding nodes adds what the nodes yield. -/
theorem emits_expand (file : String) (store : Store) (scope : Scope) (nodes : List Node) :
    (expand file store scope nodes).Emits (yield file store scope nodes) :=
  emits_expand_of_forall fun node _ => emits_expandNode file store scope node

/-- Running a template is expanding its contents with nothing bound. -/
theorem run_eq_yield (file : String) (store : Store) (template : Element) :
    run file store template = yield file store {} template.children := rfl

/-! ### Computing what nodes yield -/

@[simp] theorem yieldNode_text (value : String) (line : Nat) :
    yieldNode file store scope (.text value line) = scope.written value :=
  (emits_expandNode_text file store scope value line).yield_eq

theorem yieldNode_of_lacking (lacking : plan store scope tag = .error problem) :
    yieldNode file store scope (.element tag children) =
      .ofProblem (problem.reportAt file tag.line) :=
  (emits_expandNode_of_lacking file children lacking).yield_eq

/-- What a carried out element yields: what its action makes of what its contents yield. -/
theorem yieldNode_of_planned (planned : plan store scope tag = .ok action) :
    yieldNode file store scope (.element tag children) =
      action.fill file tag.line scope fun inside => yield file store inside children :=
  (emits_expandNode_of_planned file planned _ fun inside =>
    emits_expand file store inside children).yield_eq

@[simp] theorem yield_nil : yield file store scope [] = {} := by
  simpa only [yield, expand] using Emission.emits_nothing.yield_eq

@[simp] theorem yield_cons :
    yield file store scope (node :: nodes) =
      yieldNode file store scope node ++ yield file store scope nodes := by
  simpa only [yield, expand] using
    ((emits_expandNode file store scope node).andThen
      (emits_expand file store scope nodes)).yield_eq

@[simp] theorem yield_append (nodes others : List Node) :
    yield file store scope (nodes ++ others) =
      yield file store scope nodes ++ yield file store scope others := by
  induction nodes with
  | nil => simp
  | cons node nodes ih => simp [ih, Generated.append_assoc]

/-- Expanding only adds to the streams: whatever they hold, a node adds the same texts and reports
the same problems. Of nodes followed by others, these are the texts and the problems of either
alone, in the same scope, one after the other. -/
theorem expand_append (file : String) (store : Store) (scope : Scope) :
    (∀ node, ∃ g : Generated, ∀ out, expandNode file store scope node out =
      (⟨out.header ++ g.header, out.source ++ g.source⟩, g.diagnostics)) ∧
    ∀ nodes others, ∃ g h : Generated,
      (∀ out, expand file store scope nodes out =
        (⟨out.header ++ g.header, out.source ++ g.source⟩, g.diagnostics)) ∧
      (∀ out, expand file store scope others out =
        (⟨out.header ++ h.header, out.source ++ h.source⟩, h.diagnostics)) ∧
      ∀ out, expand file store scope (nodes ++ others) out =
        (⟨out.header ++ (g.header ++ h.header), out.source ++ (g.source ++ h.source)⟩,
          g.diagnostics ++ h.diagnostics) := by
  refine ⟨fun node => ⟨_, emits_expandNode file store scope node⟩, fun nodes others => ?_⟩
  have both := emits_expand file store scope (nodes ++ others)
  rw [yield_append] at both
  exact ⟨_, _, emits_expand file store scope nodes, emits_expand file store scope others, both⟩

/-- What nodes yield is what each of them yields, with nothing in between. -/
theorem yield_eq_intersperse :
    yield file store scope nodes =
      Generated.intersperse {} (nodes.map (yieldNode file store scope)) := by
  induction nodes with
  | nil => simp
  | cons node nodes ih =>
    cases nodes with
    | nil => simp
    | cons next nodes => rw [yield_cons, ih]; simp

end Template

end Stencil
