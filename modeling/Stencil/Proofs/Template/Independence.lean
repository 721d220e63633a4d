import Stencil.Proofs.Template.Plan

/-!
# The streams are independent

What a template writes to one stream does not depend on whether the other is written, and what it
reports depends on neither. Two runs are compared whose scopes have the same variables: the
relation between their scopes is kept by every action in every round, so that the results agree
wherever the scopes do.

## Main definitions

* `Scope.Alike`: scopes that write a stream alike, asked for the header and for the source apart

## Main results

* `Action.fill_agree`: what an action yields agrees if what its contents yield does
* `Template.yieldNode_agree`: results agree wherever the scopes do
* `Template.expand_independent`: the three independences
-/

namespace Stencil

open Markup Generated

namespace Scope

/-- The scopes write the header alike if `inHeader` holds, and the source if `inSource` holds: both
or neither of them write it, and with the same text between rows. -/
structure Alike (inHeader inSource : Prop) (σ τ : Scope) : Prop where
  header : inHeader → σ.target.writesHeader = τ.target.writesHeader ∧ σ.separator = τ.separator
  source : inSource → σ.target.writesSource = τ.target.writesSource ∧ σ.separator = τ.separator

namespace Alike

variable {inHeader inSource inDiagnostics : Prop} {σ τ : Scope}

@[refl] theorem refl (σ : Scope) : Alike inHeader inSource σ σ :=
  ⟨fun _ => ⟨rfl, rfl⟩, fun _ => ⟨rfl, rfl⟩⟩

theorem withTarget (alike : Alike inHeader inSource σ τ) (target : Target) :
    Alike inHeader inSource (σ.withTarget target) (τ.withTarget target) :=
  ⟨fun asked => ⟨rfl, (alike.header asked).2⟩, fun asked => ⟨rfl, (alike.source asked).2⟩⟩

theorem withSeparator (alike : Alike inHeader inSource σ τ) (separator : String) :
    Alike inHeader inSource (σ.withSeparator separator) (τ.withSeparator separator) :=
  ⟨fun asked => ⟨(alike.header asked).1, rfl⟩, fun asked => ⟨(alike.source asked).1, rfl⟩⟩

theorem bind (alike : Alike inHeader inSource σ τ) (name table : String) (row : Row) :
    Alike inHeader inSource (σ.bind name table row) (τ.bind name table row) :=
  ⟨alike.header, alike.source⟩

/-- Scopes that write alike write the same text. -/
theorem written (alike : Alike inHeader inSource σ τ) (text : String) :
    Agree inHeader inSource inDiagnostics (σ.written text) (τ.written text) where
  header asked := by simp only [Scope.written, (alike.header asked).1]
  source asked := by simp only [Scope.written, (alike.source asked).1]
  diagnostics _ := rfl

theorem written_separator (alike : Alike inHeader inSource σ τ) :
    Agree inHeader inSource inDiagnostics (σ.written σ.separator) (τ.written τ.separator) where
  header asked := by
    obtain ⟨sameTarget, sameSeparator⟩ := alike.header asked
    simp only [Scope.written, sameTarget, sameSeparator]
  source asked := by
    obtain ⟨sameTarget, sameSeparator⟩ := alike.source asked
    simp only [Scope.written, sameTarget, sameSeparator]
  diagnostics _ := rfl

end Alike

end Scope

namespace Action

variable {inHeader inSource inDiagnostics : Prop} {σ τ : Scope} {action : Action} {file : String}
  {line : Nat} {derive : Scope → Scope} {contents contents' : Scope → Generated}

theorem alike_of_mem_rounds (member : derive ∈ action.rounds)
    (alike : σ.Alike inHeader inSource τ) : (derive σ).Alike inHeader inSource (derive τ) := by
  cases action with
  | retarget target =>
    obtain rfl := List.mem_singleton.mp member
    exact alike.withTarget target
  | writeValue value unknown => simp [rounds] at member
  | enumeration name =>
    obtain rfl := List.mem_singleton.mp member
    exact alike.withTarget .headerOnly
  | repeatRows table binder =>
    obtain ⟨row, -, rfl⟩ := List.mem_map.mp member
    exact alike.bind binder table.name row
  | array name table binder =>
    obtain ⟨row, -, rfl⟩ := List.mem_map.mp member
    exact ((alike.withTarget .sourceOnly).withSeparator _).bind binder table.name row

theorem before_agree (alike : Scope.Alike inHeader inSource σ τ) :
    Agree inHeader inSource inDiagnostics (action.before file line σ)
      (action.before file line τ) := by
  cases action with
  | retarget target | repeatRows table name => exact .refl _
  | writeValue value unknown =>
    cases unknown with
    | none => exact alike.written value
    | some unknown => exact (Agree.refl _).append (alike.written value)
  | enumeration name => exact (alike.withTarget .headerOnly).written _
  | array name table binder =>
    exact ((alike.withTarget .headerOnly).written _).append
      ((alike.withTarget .sourceOnly).written _)

theorem between_agree (alike : Scope.Alike inHeader inSource σ τ) :
    Agree inHeader inSource inDiagnostics (action.between σ) (action.between τ) := by
  cases action with
  | retarget target | writeValue value unknown | enumeration name => exact .refl _
  | repeatRows table binder => exact alike.written_separator
  | array name table binder => exact (alike.withTarget .sourceOnly).written _

theorem after_agree (alike : Scope.Alike inHeader inSource σ τ) :
    Agree inHeader inSource inDiagnostics (action.after σ) (action.after τ) := by
  cases action with
  | retarget target | repeatRows table binder | writeValue value unknown => exact .refl _
  | enumeration name => exact (alike.withTarget .headerOnly).written _
  | array name table binder => exact (alike.withTarget .sourceOnly).written _

/-- What an action yields in scopes that write alike agrees, if its contents agree in every
round. -/
theorem fill_agree (alike : Scope.Alike inHeader inSource σ τ)
    (agree : ∀ derive ∈ action.rounds,
      Agree inHeader inSource inDiagnostics (contents (derive σ)) (contents' (derive τ))) :
    Agree inHeader inSource inDiagnostics (action.fill file line σ contents)
      (action.fill file line τ contents') :=
  (before_agree alike).append (((between_agree alike).intersperse agree).append (after_agree alike))

/-- What an action yields in scopes that write both streams alike matches, if its contents match in
every round. -/
theorem fill_matches {R : Diagnostic → Diagnostic → Prop} (related : ∀ d, R d d)
    (alike : Scope.Alike True True σ τ)
    (each : ∀ derive ∈ action.rounds, Matches R (contents (derive σ)) (contents' (derive τ))) :
    Matches R (action.fill file line σ contents) (action.fill file line τ contents') := by
  have rounds : List.Forall₂ (Matches R) (action.rounds.map fun derive => contents (derive σ))
      (action.rounds.map fun derive => contents' (derive τ)) := by
    rw [List.forall₂_map_left_iff, List.forall₂_map_right_iff, List.forall₂_same]
    exact each
  have before : Matches R (action.before file line σ) (action.before file line τ) :=
    .of_agree related (before_agree alike)
  have between : Matches R (action.between σ) (action.between τ) :=
    .of_agree related (between_agree alike)
  have after : Matches R (action.after σ) (action.after τ) := .of_agree related (after_agree alike)
  exact before.append ((between.intersperse rounds).append after)

end Action

namespace Template

variable {inHeader inSource inDiagnostics : Prop} {file : String} {store : Store} {σ τ : Scope}
  {nodes : List Node}

theorem yield_agree_of_forall
    (agree : ∀ node ∈ nodes, Agree inHeader inSource inDiagnostics
      (yieldNode file store σ node) (yieldNode file store τ node)) :
    Agree inHeader inSource inDiagnostics (yield file store σ nodes)
      (yield file store τ nodes) := by
  rw [yield_eq_intersperse, yield_eq_intersperse]
  exact (Agree.refl _).intersperse agree

/-- What an element yields agrees in scopes in which it has the same plan, if its contents agree in
every round. The contents may differ. -/
theorem yieldNode_element_agree {tag : Tag} {children children' : List Node}
    (alike : Scope.Alike inHeader inSource σ τ) (samePlan : plan store σ tag = plan store τ tag)
    (agree : ∀ action, plan store τ tag = .ok action → ∀ derive ∈ action.rounds,
      Agree inHeader inSource inDiagnostics (yield file store (derive σ) children)
        (yield file store (derive τ) children')) :
    Agree inHeader inSource inDiagnostics (yieldNode file store σ (.element tag children))
      (yieldNode file store τ (.element tag children')) := by
  cases planned : plan store τ tag with
  | error problem =>
    rw [yieldNode_of_lacking (samePlan.trans planned), yieldNode_of_lacking planned]
  | ok action =>
    rw [yieldNode_of_planned (samePlan.trans planned), yieldNode_of_planned planned]
    exact Action.fill_agree alike (agree action planned)

/-- Where scopes with the same variables write alike, nodes yield the same. -/
theorem yieldNode_agree (node : Node) (alike : Scope.Alike inHeader inSource σ τ)
    (sameBindings : ∀ name, σ.lookup name = τ.lookup name) :
    Agree inHeader inSource inDiagnostics (yieldNode file store σ node)
      (yieldNode file store τ node) := by
  -- The two runs take the same rounds, and what is assumed of the scopes is kept by each of them.
  induction node generalizing σ τ with
  | text value line => simpa only [yieldNode_text] using alike.written value
  | element tag children ih =>
    refine yieldNode_element_agree alike (plan_congr fun name _ => sameBindings name) ?_
    intro action _ derive member
    obtain ⟨bound, lookup⟩ := Action.lookup_of_mem_rounds member
    refine yield_agree_of_forall fun child childMember => ?_
    refine ih child childMember (Action.alike_of_mem_rounds member alike) fun name => ?_
    rw [lookup, lookup, sameBindings]

theorem yield_agree (nodes : List Node) (alike : Scope.Alike inHeader inSource σ τ)
    (sameBindings : ∀ name, σ.lookup name = τ.lookup name) :
    Agree inHeader inSource inDiagnostics (yield file store σ nodes)
      (yield file store τ nodes) :=
  yield_agree_of_forall fun node _ => yieldNode_agree node alike sameBindings

/-- **Independence of the streams.** For two scopes with the same variables and whatever the streams
hold: if both or neither write the header, with the same text between rows, the same text is added
to the header, whether or not they write the source; likewise for the source; and the problems
reported are the same in any case. -/
theorem expand_independent (file : String) (store : Store) (nodes : List Node) (σ τ : Scope)
    (sameBindings : ∀ name, σ.lookup name = τ.lookup name) (out out' : Streams) :
    (σ.target.writesHeader = τ.target.writesHeader → σ.separator = τ.separator →
      ∃ text, (expand file store σ nodes out).1.header = out.header ++ text ∧
        (expand file store τ nodes out').1.header = out'.header ++ text) ∧
    (σ.target.writesSource = τ.target.writesSource → σ.separator = τ.separator →
      ∃ text, (expand file store σ nodes out).1.source = out.source ++ text ∧
        (expand file store τ nodes out').1.source = out'.source ++ text) ∧
    (expand file store σ nodes out).2 = (expand file store τ nodes out').2 := by
  -- One relation gives all three parts: it asks of the scopes for each stream just what is assumed.
  have alike : Scope.Alike
      (σ.target.writesHeader = τ.target.writesHeader ∧ σ.separator = τ.separator)
      (σ.target.writesSource = τ.target.writesSource ∧ σ.separator = τ.separator) σ τ :=
    ⟨id, id⟩
  have agree : Agree _ _ True (yield file store σ nodes) (yield file store τ nodes) :=
    yield_agree nodes alike sameBindings
  rw [emits_expand file store σ nodes out, emits_expand file store τ nodes out']
  refine ⟨fun sameTarget sameSeparator => ?_, fun sameTarget sameSeparator => ?_, ?_⟩
  · refine ⟨(yield file store σ nodes).header, rfl, ?_⟩
    rw [agree.header ⟨sameTarget, sameSeparator⟩]
    rfl
  · refine ⟨(yield file store σ nodes).source, rfl, ?_⟩
    rw [agree.source ⟨sameTarget, sameSeparator⟩]
    rfl
  · exact agree.diagnostics trivial

end Template

namespace Sample

/-- An element that declares a table of two colours. -/
def colors : Element :=
  ⟨⟨"Color", [], 2⟩,
    [.element ⟨"col", [("name", "name")], 3⟩ [],
     .element ⟨"col", [("name", "hex"), ("default", "000000")], 4⟩ [],
     .element ⟨"row", [("name", "Red"), ("hex", "FF0000")], 5⟩ [],
     .element ⟨"row", [("name", "Blue")], 6⟩ []]⟩

/-- A document with the table of colours. -/
def document : Element :=
  ⟨⟨"root", [], 1⟩, [.element ⟨"tables", [], 1⟩ [colors.toNode]]⟩

/-- The store with the table of colours. -/
def store : Store := (Store.load "colors.xml" document).1

/-- Within `c`, an expansion over the colours that moves to the header and back, and refers to a
column that there is not. -/
def pairs : List Node :=
  [.element ⟨"expand", [("table", "Color"), ("var", "d")], 9⟩
    [.element ⟨"var", [("name", "c"), ("col", "name")], 10⟩ [],
     .element ⟨"header", [], 11⟩ [.text "/" 11],
     .element ⟨"source", [], 12⟩ [.element ⟨"var", [("name", "d"), ("col", "name")], 12⟩ []],
     .element ⟨"var", [("name", "d"), ("col", "shade")], 13⟩ []]]

/-- A row that `c` may stand for. -/
def green : Binding := ⟨"Color", ⟨[("name", "Green"), ("hex", "00FF00")], 7⟩⟩

/-- A scope that writes the source only. -/
def narrow : Scope := { target := .sourceOnly, bindings := [("c", green)], separator := "; " }

/-- A scope that writes both streams, in which `c` was bound twice. -/
def wide : Scope := { bindings := [("c", green), ("c", ⟨"Other", ⟨[], 8⟩⟩)], separator := "; " }

end Sample

namespace Template

theorem expand_independent_colors :
    (∀ name, Sample.narrow.lookup name = Sample.wide.lookup name) ∧
      (Sample.narrow.target.writesSource = Sample.wide.target.writesSource ∧
        Sample.narrow.separator = Sample.wide.separator) ∧
      (∃ text,
        (expand "a.xml" Sample.store Sample.narrow Sample.pairs {}).1.source = "" ++ text ∧
        (expand "a.xml" Sample.store Sample.wide Sample.pairs ⟨"h", "s"⟩).1.source =
          "s" ++ text) ∧
      (expand "a.xml" Sample.store Sample.narrow Sample.pairs {}).2 =
        (expand "a.xml" Sample.store Sample.wide Sample.pairs ⟨"h", "s"⟩).2 := by
  have sameBindings : ∀ name, Sample.narrow.lookup name = Sample.wide.lookup name := by
    intro name
    by_cases same : name = "c"
    · subst same; rfl
    · simp [Sample.narrow, Sample.wide, Scope.lookup, List.lookup_cons, beq_false_of_ne same]
  have independent := expand_independent "a.xml" Sample.store Sample.pairs _ _ sameBindings {}
    ⟨"h", "s"⟩
  exact ⟨sameBindings, ⟨rfl, rfl⟩, independent.2.1 rfl rfl, independent.2.2⟩

end Template

end Stencil
