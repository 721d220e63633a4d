import Stencil.Proofs.Markup.Lines
import Stencil.Proofs.Template.Independence

/-!
# Header and source in each other's place

Apart from arrays and enumerations, no directive treats the header unlike the source. If both are
exchanged, in the tags of a template and in the scope it is expanded in, each stream receives what
the other one did before, and the problems stay the same.

Exchanging commutes with every step of an expansion: with planning, as only `source` and `header`
set the streams; with deriving the scopes of the contents; and with what an action yields around
them. So it commutes with expanding.

## Main definitions

* `Scope.mirror`, `Streams.mirror`, `Generated.mirror`: header and source exchanged
* `Template.mirror`: nodes with the `source` and `header` tags exchanged
* `Action.IsSymmetric`: the action has nothing of its own to write to one of the streams

## Main results

* `Template.plan_mirror`: exchanging commutes with planning
* `Action.fill_mirror`: it commutes with what an action yields
* `Template.expand_mirror`: it commutes with expanding
-/

namespace Stencil

open Markup

/-! ### Exchanging the streams -/

/-- The header in place of the source, and the source in place of the header. -/
def Target.mirror : Target → Target
  | both => both
  | headerOnly => sourceOnly
  | sourceOnly => headerOnly

@[simp] theorem Target.writesHeader_mirror (target : Target) :
    target.mirror.writesHeader = target.writesSource := by
  cases target <;> rfl

@[simp] theorem Target.writesSource_mirror (target : Target) :
    target.mirror.writesSource = target.writesHeader := by
  cases target <;> rfl

/-- The texts in each other's place. -/
def Streams.mirror (out : Streams) : Streams := ⟨out.source, out.header⟩

/-- The scope that writes the header where this one writes the source, and the other way round. -/
def Scope.mirror (scope : Scope) : Scope := scope.withTarget scope.target.mirror

namespace Generated

/-- The result with its texts in each other's place. -/
def mirror (g : Generated) : Generated := ⟨g.source, g.header, g.diagnostics⟩

@[simp] theorem mirror_append (g h : Generated) : (g ++ h).mirror = g.mirror ++ h.mirror := rfl

theorem mirror_intersperse (between : Generated) (l : List Generated) :
    (intersperse between l).mirror = intersperse between.mirror (l.map mirror) :=
  map_intersperse rfl mirror_append between l

end Generated

theorem Scope.written_mirror (scope : Scope) (text : String) :
    scope.mirror.written text = (scope.written text).mirror := by
  simp [written, mirror, Scope.withTarget, Generated.mirror]

/-! ### Exchanging the tags -/

/-- The tag, with `header` as its name in place of `source`, and `source` in place of `header`. -/
def Markup.Tag.mirror (tag : Tag) : Tag :=
  { tag with
    name := if tag.name = "source" then "header" else
      if tag.name = "header" then "source" else tag.name }

theorem Markup.Tag.mirror_of_ne {tag : Tag} (notSource : tag.name ≠ "source")
    (notHeader : tag.name ≠ "header") : tag.mirror = tag := by
  rw [mirror, if_neg notSource, if_neg notHeader]

namespace Template

mutual

/-- A node with the `source` and `header` tags exchanged. -/
def mirrorNode : Node → Node
  | .text value line => .text value line
  | .element tag children => .element tag.mirror (mirror children)
termination_by structural node => node

/-- Nodes with the `source` and `header` tags exchanged. -/
def mirror : List Node → List Node
  | [] => []
  | node :: nodes => mirrorNode node :: mirror nodes
termination_by structural nodes => nodes

end

example :
    mirror [.element ⟨"source", [], 1⟩ [.text "x" 1, .element ⟨"header", [], 2⟩ [.text "y" 2]]] =
      [.element ⟨"header", [], 1⟩ [.text "x" 1, .element ⟨"source", [], 2⟩ [.text "y" 2]]] := rfl

theorem mirror_eq_map (nodes : List Node) : mirror nodes = nodes.map mirrorNode := by
  induction nodes with
  | nil => rfl
  | cons node nodes ih => rw [mirror, ih, List.map_cons]

/-- Nodes stay as they are if each of them does. -/
theorem mirror_eq_self_of_forall {nodes : List Node}
    (same : ∀ node ∈ nodes, mirrorNode node = node) : mirror nodes = nodes := by
  rw [mirror_eq_map, List.map_congr_left same, List.map_id']

/-- Where there are no such tags, nothing is exchanged. -/
theorem mirrorNode_eq_self (node : Node)
    (without : ∀ tag ∈ node.tags, tag.name ≠ "source" ∧ tag.name ≠ "header") :
    mirrorNode node = node := by
  induction node with
  | text value line => rfl
  | element tag children ih =>
    rw [Node.tags_element, List.forall_mem_cons] at without
    obtain ⟨⟨notSource, notHeader⟩, below⟩ := without
    have sameChildren : mirror children = children :=
      mirror_eq_self_of_forall fun child member => ih child member fun inner isInner =>
        below inner (List.mem_flatMap_of_mem member isInner)
    rw [mirrorNode, sameChildren, Tag.mirror_of_ne notSource notHeader]

end Template

/-! ### Exchanging what is done -/

namespace Action

variable {file : String} {line : Nat} {scope : Scope} {action : Action}
  {contents contents' : Scope → Generated}

/-- The action with the streams exchanged that it sets for its contents. -/
def mirror : Action → Action
  | retarget target => retarget target.mirror
  | repeatRows table name => repeatRows table name
  | writeValue value unknown => writeValue value unknown
  | enumeration name => enumeration name
  | array name table binder => array name table binder

/-- The action has nothing of its own to write to one of the streams. -/
def IsSymmetric : Action → Prop
  | retarget _ | repeatRows _ _ | writeValue _ _ => True
  | enumeration _ | array _ _ _ => False

/-- What an action yields in the exchanged scope, if that is so of its contents. -/
theorem fill_mirror (symmetric : action.IsSymmetric)
    (each : ∀ inside, contents' (Scope.mirror inside) = (contents inside).mirror) :
    action.mirror.fill file line scope.mirror contents' =
      (action.fill file line scope contents).mirror := by
  cases action with
  | retarget target =>
    rw [mirror, fill_retarget, fill_retarget]
    exact each (scope.withTarget target)
  | repeatRows table name =>
    have rows : (table.rows.map fun row => contents' (scope.mirror.bind name table.name row)) =
        (table.rows.map fun row => contents (scope.bind name table.name row)).map
          Generated.mirror := by
      rw [List.map_map]
      exact List.map_congr_left fun row _ => each (scope.bind name table.name row)
    rw [mirror, fill_repeatRows, fill_repeatRows, rows, Generated.mirror_intersperse,
      scope.written_mirror]
    rfl
  | writeValue value unknown =>
    rw [mirror, fill_writeValue, fill_writeValue]
    cases unknown with
    | none => exact scope.written_mirror value
    | some unknown =>
      rw [before, before, Generated.mirror_append, scope.written_mirror]
      rfl
  | enumeration name | array name table binder => exact symmetric.elim

end Action

namespace Template

variable {file : String} {store : Store} {scope : Scope} {tag : Tag} {action : Action}
  {nodes : List Node}

theorem isSymmetric_of_planned (planned : plan store scope tag = .ok action)
    (notEnum : tag.name ≠ "enum") (notArray : tag.name ≠ "expand_data") : action.IsSymmetric := by
  cases plan_eq_ok_iff.mp planned with
  | source | header | expand | var => trivial
  | enum directive named => exact notEnum (Directive.ofTag?_eq_some_iff.mp directive)
  | expandData directive named reads stored binds =>
    exact notArray (Directive.ofTag?_eq_some_iff.mp directive)

/-- Only the `source` and `header` tags set the streams. -/
theorem mirror_of_planned (planned : plan store scope tag = .ok action)
    (notSource : tag.name ≠ "source") (notHeader : tag.name ≠ "header") :
    action.mirror = action := by
  cases plan_eq_ok_iff.mp planned with
  | source directive => exact absurd (Directive.ofTag?_eq_some_iff.mp directive) notSource
  | header directive => exact absurd (Directive.ofTag?_eq_some_iff.mp directive) notHeader
  | enum | expand | expandData | var => rfl

/-- Exchanging commutes with planning: the exchanged element lacks the same, and otherwise is about
to do the same with the streams exchanged. -/
theorem plan_mirror (store : Store) (scope : Scope) (tag : Tag) :
    plan store scope.mirror tag.mirror = (plan store scope tag).map Action.mirror := by
  by_cases isSource : tag.name = "source"
  · have toHeader : tag.mirror.name = "header" := if_pos isSource
    have directive : Directive.ofTag? "source" = some .source := by decide
    have other : Directive.ofTag? "header" = some .header := by decide
    simp only [plan, isSource, toHeader, directive, other]
    rfl
  by_cases isHeader : tag.name = "header"
  · have toSource : tag.mirror.name = "source" := (if_neg isSource).trans (if_pos isHeader)
    have directive : Directive.ofTag? "header" = some .header := by decide
    have other : Directive.ofTag? "source" = some .source := by decide
    simp only [plan, isHeader, toSource, directive, other]
    rfl
  -- Any other tag stays as it is, and its plan does not look at the streams.
  rw [Tag.mirror_of_ne isSource isHeader, Scope.mirror, plan_withTarget]
  cases planned : plan store scope tag with
  | error problem => rfl
  | ok action => exact congrArg Except.ok (mirror_of_planned planned isSource isHeader).symm

/-! ### Exchanging what is yielded -/

theorem yield_mirror_of_forall
    (each : ∀ node ∈ nodes, yieldNode file store scope.mirror (mirrorNode node) =
      (yieldNode file store scope node).mirror) :
    yield file store scope.mirror (mirror nodes) = (yield file store scope nodes).mirror := by
  rw [yield_eq_intersperse, yield_eq_intersperse, Generated.mirror_intersperse, mirror_eq_map,
    List.map_map, List.map_map]
  exact congrArg (Generated.intersperse {}) (List.map_congr_left each)

theorem yieldNode_mirror (file : String) (store : Store) (scope : Scope) (node : Node)
    (symmetric : ∀ tag ∈ node.tags, tag.name ≠ "enum" ∧ tag.name ≠ "expand_data") :
    yieldNode file store scope.mirror (mirrorNode node) =
      (yieldNode file store scope node).mirror := by
  -- The contents are expanded in other scopes, of which the exchanged ones have to be compared.
  induction node generalizing scope with
  | text value line =>
    rw [mirrorNode, yieldNode_text, yieldNode_text, Scope.written_mirror]
  | element tag children ih =>
    rw [Node.tags_element, List.forall_mem_cons] at symmetric
    obtain ⟨⟨notEnum, notArray⟩, below⟩ := symmetric
    have mirrored := plan_mirror store scope tag
    rw [mirrorNode]
    cases planned : plan store scope tag with
    | error problem =>
      rw [planned] at mirrored
      rw [yieldNode_of_lacking planned, yieldNode_of_lacking mirrored]
      rfl
    | ok action =>
      rw [planned] at mirrored
      rw [yieldNode_of_planned planned, yieldNode_of_planned mirrored]
      refine Action.fill_mirror (isSymmetric_of_planned planned notEnum notArray) fun inside => ?_
      refine yield_mirror_of_forall fun child member =>
        ih child member inside fun inner isInner => ?_
      exact below inner (List.mem_flatMap_of_mem member isInner)

theorem yield_mirror (file : String) (store : Store) (scope : Scope) (nodes : List Node)
    (symmetric : ∀ tag ∈ nodes.flatMap Node.tags, tag.name ≠ "enum" ∧ tag.name ≠ "expand_data") :
    yield file store scope.mirror (mirror nodes) = (yield file store scope nodes).mirror :=
  yield_mirror_of_forall fun node member => yieldNode_mirror file store scope node
    fun tag isTag => symmetric tag (List.mem_flatMap_of_mem member isTag)

/-- **Symmetry of header and source.** In a template without arrays and enumerations, exchange the
`source` and `header` tags, and exchange the streams that the scope writes: then the texts added to
the streams are exchanged, and the problems reported are the same. So if a template does not set the
streams at all and both are written, the same text is added to both. -/
theorem expand_mirror (file : String) (store : Store) (scope : Scope) (nodes : List Node)
    (symmetric : ∀ tag ∈ nodes.flatMap Node.tags,
      tag.name ≠ "enum" ∧ tag.name ≠ "expand_data") :
    (∀ out, expand file store scope.mirror (mirror nodes) out.mirror =
      ((expand file store scope nodes out).1.mirror, (expand file store scope nodes out).2)) ∧
    ((∀ tag ∈ nodes.flatMap Node.tags, tag.name ≠ "source" ∧ tag.name ≠ "header") →
      scope.target = .both →
      ∃ text problems, ∀ out, expand file store scope nodes out =
        (⟨out.header ++ text, out.source ++ text⟩, problems)) := by
  have mirrored := yield_mirror file store scope nodes symmetric
  constructor
  · intro out
    rw [emits_expand file store scope nodes out, emits_expand file store scope.mirror _ out.mirror,
      mirrored]
    rfl
  · intro without writesBoth
    have sameNodes : mirror nodes = nodes := mirror_eq_self_of_forall fun node member =>
      mirrorNode_eq_self node fun tag isTag =>
        without tag (List.mem_flatMap_of_mem member isTag)
    have sameScope : scope.mirror = scope := by
      rw [Scope.mirror, writesBoth]
      exact congrArg (fun target => { scope with target }) writesBoth.symm
    rw [sameNodes, sameScope] at mirrored
    -- What is its own mirror image has the same text in both places.
    have sameText : (yield file store scope nodes).header = (yield file store scope nodes).source :=
      congrArg Generated.header mirrored
    refine ⟨(yield file store scope nodes).source, (yield file store scope nodes).diagnostics,
      fun out => ?_⟩
    rw [emits_expand file store scope nodes out, Generated.onto, sameText]

end Template

namespace Sample

/-- The names of the colours, for both streams. -/
def listing : List Node :=
  [.element ⟨"expand", [("table", "Color"), ("var", "d")], 9⟩
    [.element ⟨"var", [("name", "d"), ("col", "name")], 10⟩ []]]

end Sample

namespace Template

theorem expand_mirror_colors :
    (∀ tag ∈ Sample.pairs.flatMap Node.tags, tag.name ≠ "enum" ∧ tag.name ≠ "expand_data") ∧
    expand "a.xml" Sample.store Sample.narrow.mirror (mirror Sample.pairs) ⟨"s", "h"⟩ =
      ((expand "a.xml" Sample.store Sample.narrow Sample.pairs ⟨"h", "s"⟩).1.mirror,
        (expand "a.xml" Sample.store Sample.narrow Sample.pairs ⟨"h", "s"⟩).2) ∧
    ∃ text problems, ∀ out, expand "a.xml" Sample.store Sample.wide Sample.listing out =
      (⟨out.header ++ text, out.source ++ text⟩, problems) := by
  have symmetric : ∀ tag ∈ Sample.pairs.flatMap Node.tags,
      tag.name ≠ "enum" ∧ tag.name ≠ "expand_data" := by decide
  have ofPairs := expand_mirror "a.xml" Sample.store Sample.narrow Sample.pairs symmetric
  have ofNames := expand_mirror "a.xml" Sample.store Sample.wide Sample.listing (by decide)
  exact ⟨symmetric, ofPairs.1 ⟨"h", "s"⟩, ofNames.2 (by decide) rfl⟩

end Template

end Stencil
