import Stencil.Proofs.Mustache.Reach

/-!
# When rendering succeeds

Two things can go wrong in rendering: a value tag that is met names something that has no text, and
partials include each other deeper than there is room for. If neither happens, rendering succeeds.

## Main definitions

* `IsWritable`: what was found is nothing or can be written
* `NestsTo`: partials include each other so many deep
* `Renderable`: nothing that is met goes wrong

## Main results

* `Template.exists_renderAll_eq_ok_iff`: nodes are rendered exactly if they are `Renderable`
* `Template.exists_render_eq_ok_iff`: the same for a template
-/

namespace Stencil.Mustache

variable {partials : String → List Node} {stack stack' : List Json} {node node' : Node}
  {nodes body : List Node} {path : Path} {inverted : Bool} {name indent : String} {depth : Nat}

/-! ### Values -/

/-- What was found is nothing, or `null`, which is written as nothing, or has a text. -/
def IsWritable (found : Option Json) : Prop :=
  ∀ value, found = some value → value = .null ∨ value.text?.isSome

theorem Output.exists_writeValue_eq_ok_iff (out : Output) (indent : String) (escaped : Bool)
    (found : Option Json) :
    (∃ out', out.writeValue indent escaped found = .ok out') ↔ IsWritable found := by
  cases found with
  | none => exact ⟨fun _ => nofun, fun _ => ⟨out, rfl⟩⟩
  | some value =>
    have ofValue : IsWritable (some value) ↔ value = .null ∨ value.text?.isSome :=
      ⟨fun writable => writable value rfl, fun holds _ same => Option.some.inj same ▸ holds⟩
    rw [ofValue]
    cases value with
    | null => exact ⟨fun _ => .inl rfl, fun _ => ⟨_, rfl⟩⟩
    | number n | string s => exact ⟨fun _ => .inr rfl, fun _ => ⟨_, rfl⟩⟩
    | bool truth | array items | object members =>
      exact ⟨fun ⟨_, written⟩ => (by cases written), fun holds => holds.elim nofun nofun⟩

/-! ### Partials -/

/-- From the nodes, given the values at hand, partials include each other at least so many deep. -/
def NestsTo (partials : String → List Node) : Nat → List Json → List Node → Prop
  | 0, _, _ => True
  | depth + 1, stack, nodes => ∃ stack' name indent,
    Reaches partials stack nodes stack' (.inclusion name indent) ∧
      NestsTo partials depth stack' (partials name)

theorem NestsTo.of_succ (nests : NestsTo partials (depth + 1) stack nodes) :
    NestsTo partials depth stack nodes := by
  induction depth generalizing stack nodes with
  | zero => exact trivial
  | succ depth ih =>
    obtain ⟨stack', name, indent, reaches, nests⟩ := nests
    exact ⟨stack', name, indent, reaches, ih nests⟩

/-- Whether a node that is met can be rendered, as far as the node itself is concerned, if partials
may nest to a depth. -/
def Node.Fits (partials : String → List Node) (depth : Nat) (stack : List Json) : Node → Prop
  | .value path _ => IsWritable (path.find? stack)
  | .inclusion name _ => ¬ NestsTo partials depth stack (partials name)
  | .text _ | .block _ _ _ => True

/-- Nothing that is met goes wrong, if partials may nest to a depth. -/
def Renderable (partials : String → List Node) (depth : Nat) (stack : List Json)
    (nodes : List Node) : Prop :=
  Everywhere partials (fun stack node => node.Fits partials depth stack) stack nodes

/-- Nothing goes wrong if all values that are met can be written and partials do not nest deeper
than they may. -/
theorem renderable_iff :
    Renderable partials depth stack nodes ↔
      (∀ stack' path escaped, Reaches partials stack nodes stack' (.value path escaped) →
        IsWritable (path.find? stack')) ∧ ¬ NestsTo partials (depth + 1) stack nodes := by
  constructor
  · intro renderable
    refine ⟨fun stack' path escaped => renderable stack' (.value path escaped), ?_⟩
    rintro ⟨stack', name, indent, reaches, nests⟩
    exact renderable stack' (.inclusion name indent) reaches nests
  · rintro ⟨writable, bounded⟩ stack' node' reaches
    cases node' with
    | text s => exact trivial
    | block path inverted body => exact trivial
    | value path escaped => exact writable stack' path escaped reaches
    | inclusion name indent => exact fun nests => bounded ⟨stack', name, indent, reaches, nests⟩

namespace Renderable

theorem iff_forall :
    Renderable partials depth stack nodes ↔
      ∀ node ∈ nodes, Renderable partials depth stack [node] := Everywhere.iff_forall

theorem text (s : String) : Renderable partials depth stack [.text s] :=
  Everywhere.text_iff.mpr trivial

theorem value_iff {escaped : Bool} :
    Renderable partials depth stack [.value path escaped] ↔ IsWritable (path.find? stack) :=
  Everywhere.value_iff

theorem block_iff :
    Renderable partials depth stack [.block path inverted body] ↔
      ∀ inner ∈ bodyStacks stack path inverted, Renderable partials depth inner body :=
  Everywhere.block_iff.trans (and_iff_right trivial)

theorem not_inclusion_zero : ¬ Renderable partials 0 stack [.inclusion name indent] :=
  fun renderable => renderable stack (.inclusion name indent) .here trivial

theorem inclusion_succ_iff :
    Renderable partials (depth + 1) stack [.inclusion name indent] ↔
      Renderable partials depth stack (partials name) := by
  constructor
  · intro renderable
    refine renderable_iff.mpr ⟨fun stack' path escaped reaches => ?_, ?_⟩
    · exact renderable stack' (.value path escaped) (.included reaches)
    · exact renderable stack (.inclusion name indent) .here
  · intro renderable
    obtain ⟨writable, bounded⟩ := renderable_iff.mp renderable
    refine renderable_iff.mpr ⟨fun stack' path escaped reaches => ?_, ?_⟩
    · rcases reaches_inclusion_iff.mp reaches with ⟨-, same⟩ | reaches
      · cases same
      · exact writable stack' path escaped reaches
    · rintro ⟨stack', other, more, reaches, nests⟩
      rcases reaches_inclusion_iff.mp reaches with ⟨rfl, same⟩ | reaches
      · cases same
        exact bounded nests
      · exact bounded ⟨stack', other, more, reaches, nests.of_succ⟩

end Renderable

/-! ### Templates -/

/-- Nodes are rendered exactly if nothing that is met goes wrong, provided that this is so of the
partials among them. -/
theorem Node.exists_renderAll_eq_ok_iff {inclusion : Inclusion}
    (atInclusion : ∀ name indent more stack out,
      (∃ out', inclusion name more stack out = .ok out') ↔
        Renderable partials depth stack [.inclusion name indent])
    (nodes : List Node) (indent : String) (stack : List Json) (out : Output) :
    (∃ out', Node.renderAll inclusion indent stack nodes out = .ok out') ↔
      Renderable partials depth stack nodes := by
  have atNode (node : Node) (stack : List Json) (out : Output) :
      (∃ out', node.render inclusion indent stack out = .ok out') ↔
        Renderable partials depth stack [node] := by
    induction node generalizing stack out with
    | text s => exact ⟨fun _ => .text s, fun _ => ⟨_, rfl⟩⟩
    | value path escaped =>
      exact (Output.exists_writeValue_eq_ok_iff ..).trans Renderable.value_iff.symm
    | inclusion name more => exact atInclusion name more (indent ++ more) stack out
    | block path inverted body ih =>
      rw [Node.render_block, Renderable.block_iff]
      refine exists_foldlM_eq_ok_iff (fun inner _ out => ?_) out
      rw [Node.renderAll_eq_foldlM, Renderable.iff_forall]
      exact exists_foldlM_eq_ok_iff (fun node isMember out => ih node isMember inner out) out
  rw [Node.renderAll_eq_foldlM, Renderable.iff_forall]
  exact exists_foldlM_eq_ok_iff (fun node _ out => atNode node stack out) out

namespace Template

variable (t : Template)

/-- The nodes of a partial; a name that names none has no nodes. -/
def nodesOf (name : String) : List Node := (t.partials.lookup name).getD []

/-- Nodes are rendered, partials nesting to at most some depth, exactly if nothing that is met goes
wrong. -/
theorem exists_renderAll_eq_ok_iff (depth : Nat) (nodes : List Node) (indent : String)
    (stack : List Json) (out : Output) :
    (∃ out', Node.renderAll (t.renderPartial depth) indent stack nodes out = .ok out') ↔
      Renderable t.nodesOf depth stack nodes := by
  induction depth generalizing nodes indent stack out with
  | zero =>
    refine Node.exists_renderAll_eq_ok_iff (fun name indent more stack out => ?_) nodes ..
    exact ⟨nofun, fun renderable => absurd renderable Renderable.not_inclusion_zero⟩
  | succ depth ih =>
    refine Node.exists_renderAll_eq_ok_iff (fun name indent more stack out => ?_) nodes ..
    rw [Renderable.inclusion_succ_iff]
    exact ih (t.nodesOf name) more stack out

/-- A template is rendered exactly if all values that are met can be written and partials do not
nest deeper than they may. -/
theorem exists_render_eq_ok_iff (data : Json) :
    (∃ text, t.render data = .ok text) ↔ Renderable t.nodesOf maxDepth [data] t.nodes := by
  rw [← exists_renderAll_eq_ok_iff t maxDepth t.nodes "" [data] {}]
  simp only [render, bind_eq_ok_iff]
  constructor
  · rintro ⟨text, out, rendered, -⟩
    exact ⟨out, rendered⟩
  · rintro ⟨out, rendered⟩
    exact ⟨out.text, out, rendered, rfl⟩

end Template

end Stencil.Mustache
