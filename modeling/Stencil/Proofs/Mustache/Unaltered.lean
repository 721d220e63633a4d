import Stencil.Proofs.Mustache.Indent
import Stencil.Proofs.Mustache.Partials
import Stencil.Proofs.Mustache.Plain

/-!
# Rendering with less escaped

If fewer values of a template are escaped, what comes of it is the same up to that: it fails in the
same way or not at all, and the text is the same exactly if all values that are escaped no more are
plain. The template itself and its partials may differ in what is escaped.

## Main definitions

* `Template.mapEscaped`: a template in which some values are escaped and others not
* `Template.Unaltered`: every value that is met is plain, or escaped as before

## Main results

* `Node.renderAll_mapEscapedAll`: what comes of nodes
* `Template.render_mapEscaped`: what comes of a template
-/

namespace Stencil.Mustache

open Output (EscapesTo)

variable {f g : Bool → Bool}

/-- A node writes the same if `f` tells which values are escaped: a value that `f` treats otherwise
is plain, and what is said of a partial that is included holds. -/
def Node.Unaltered (f : Bool → Bool) (included : List Json → String → Prop) (stack : List Json) :
    Node → Prop
  | .value path escaped => f escaped = escaped ∨ IsPlain (textOf (path.find? stack))
  | .inclusion name _ => included stack name
  | .text _ | .block _ _ _ => True

/-- Nodes with less escaped write the same up to that, provided that this is so of the partials
among them. -/
theorem Node.renderAll_mapEscapedAll (lessens : ∀ escaped, f escaped → escaped)
    {partials : String → List Node} {included : List Json → String → Prop}
    {inclusion inclusion' : Inclusion}
    (atInclusion : ∀ name {indent} stack {same plain out}, IsPlain indent →
      EscapesTo same plain out →
      Corresponds
        (EscapesTo (same ∧ included stack name ∧
          Everywhere partials (Node.Unaltered f included) stack (partials name)))
        (inclusion' name indent stack plain) (inclusion name indent stack out))
    {nodes : List Node} (indented : ∀ node ∈ nodes, node.Indented) {indent : String}
    (plainIndent : IsPlain indent) (stack : List Json) {same : Prop} {plain out : Output}
    (escapes : EscapesTo same plain out) :
    Corresponds
      (EscapesTo (same ∧ Everywhere partials (Node.Unaltered f included) stack nodes))
      (Node.renderAll inclusion' indent stack (Node.mapEscapedAll f nodes) plain)
      (Node.renderAll inclusion indent stack nodes out) := by
  have all {nodes : List Node} {stack : List Json}
      (each : ∀ node ∈ nodes, ∀ same plain out, EscapesTo same plain out →
        Corresponds
          (EscapesTo (same ∧ Everywhere partials (Node.Unaltered f included) stack [node]))
          ((node.mapEscaped f).render inclusion' indent stack plain)
          (node.render inclusion indent stack out))
      {same : Prop} {plain out : Output} (escapes : EscapesTo same plain out) :
      Corresponds (EscapesTo (same ∧ Everywhere partials (Node.Unaltered f included) stack nodes))
        (Node.renderAll inclusion' indent stack (Node.mapEscapedAll f nodes) plain)
        (Node.renderAll inclusion indent stack nodes out) := by
    rw [renderAll_eq_foldlM, renderAll_eq_foldlM, mapEscapedAll_eq_map, List.foldlM_map,
      Everywhere.iff_forall]
    exact Corresponds.foldlM each escapes
  -- A partial has the indent of the nodes around it before its own; both are plain.
  have single (node : Node) (isIndented : node.Indented) (stack : List Json) (same : Prop)
      (plain out : Output) (escapes : EscapesTo same plain out) :
      Corresponds (EscapesTo (same ∧ Everywhere partials (Node.Unaltered f included) stack [node]))
        ((node.mapEscaped f).render inclusion' indent stack plain)
        (node.render inclusion indent stack out) := by
    induction node generalizing stack same plain out with
    | text s =>
      rw [Everywhere.text_iff, Unaltered, and_true]
      exact .ok escapes.writeText
    | value path escaped =>
      rw [Everywhere.value_iff]
      exact escapes.writeValue (lessens escaped) plainIndent (path.find? stack)
    | inclusion name more =>
      cases isIndented with
      | inclusion blank =>
        rw [Everywhere.inclusion_iff]
        have isPlain := IsPlain.append_iff.mpr ⟨plainIndent, .of_isBlank blank⟩
        exact atInclusion name stack isPlain escapes
    | block path inverted body ih =>
      cases isIndented with
      | block within =>
        rw [Everywhere.block_iff, Unaltered, true_and, mapEscaped, render_block, render_block]
        refine Corresponds.foldlM (fun inner _ same plain out escapes => ?_) escapes
        exact all (fun node isMember => ih node isMember (within node isMember) inner) escapes
  exact all (fun node isMember => single node (indented node isMember) stack) escapes

namespace Template

variable (t : Template)

/-- A template in which `f` tells which values are escaped, and `g` which ones in its partials. -/
def mapEscaped (f g : Bool → Bool) : Template where
  nodes := Node.mapEscapedAll f t.nodes
  partials := t.partials.map fun (name, nodes) => (name, Node.mapEscapedAll g nodes)

theorem nodesOf_mapEscaped (name : String) :
    (t.mapEscaped f g).nodesOf name = Node.mapEscapedAll g (t.nodesOf name) := by
  unfold nodesOf mapEscaped
  induction t.partials with
  | nil => rfl
  | cons first others ih =>
    obtain ⟨other, nodes⟩ := first
    rw [List.map_cons, List.lookup_cons, List.lookup_cons]
    split
    · rfl
    · exact ih

/-- All values that are met in a partial and that `g` treats otherwise are plain. -/
def IncludedUnaltered (g : Bool → Bool) (stack : List Json) (name : String) : Prop :=
  Everywhere t.nodesOf (Node.Unaltered g fun _ _ => True) stack (t.nodesOf name)

/-- All values that are met in the template itself and that `f` treats otherwise are plain, and so
are those in its partials that `g` treats otherwise. What is met in the template itself is what is
met if partials have no nodes. -/
def Unaltered (f g : Bool → Bool) (data : Json) : Prop :=
  Everywhere (fun _ => []) (Node.Unaltered f (t.IncludedUnaltered g)) [data] t.nodes

variable {t}

theorem renderPartial_mapEscaped (lessens : ∀ escaped, g escaped → escaped)
    (indented : ∀ name, ∀ node ∈ t.nodesOf name, node.Indented) (depth : Nat) (name : String)
    {indent : String} (stack : List Json) {same : Prop} {plain out : Output}
    (plainIndent : IsPlain indent) (escapes : EscapesTo same plain out) :
    Corresponds
      (EscapesTo (same ∧ t.IncludedUnaltered g stack name))
      ((t.mapEscaped f g).renderPartial depth name indent stack plain)
      (t.renderPartial depth name indent stack out) := by
  induction depth generalizing name indent stack same plain out with
  | zero => exact .error _
  | succ depth ih =>
    change Corresponds _ (Node.renderAll _ _ _ ((t.mapEscaped f g).nodesOf name) _)
      (Node.renderAll _ _ _ (t.nodesOf name) _)
    rw [nodesOf_mapEscaped]
    refine Node.renderAll_mapEscapedAll lessens (fun name _ stack _ _ _ plainIndent escapes => ?_)
      (indented name) plainIndent stack escapes
    rw [true_and]
    exact ih name stack plainIndent escapes

/-- In a template that is read and in its partials, all partials have blanks for an indent. -/
theorem indented_of_parse {read : FileReader} {text : String} (parsed : parse read text = .ok t) :
    (∀ node ∈ t.nodes, node.Indented) ∧ ∀ name, ∀ node ∈ t.nodesOf name, node.Indented := by
  refine ⟨Node.indented_of_parse (parse_eq_ok_iff.mp parsed).1, fun name => ?_⟩
  cases found : t.partials.lookup name with
  | none =>
    rw [nodesOf, found]
    exact List.forall_mem_nil _
  | some nodes =>
    rw [nodesOf, found]
    exact indented_of_parsePartial ((known_of_parse parsed).1.isRead found)

/-- **Rendering with less escaped.** If fewer values of a template and its partials are escaped, it
fails in the same way, or else the text is the same exactly if the values that are escaped no more
are plain. -/
theorem render_mapEscaped (lessens : ∀ escaped, f escaped → escaped)
    (lessensIncluded : ∀ escaped, g escaped → escaped)
    {read : FileReader} {text : String} (parsed : parse read text = .ok t) (data : Json) :
    Corresponds (fun plain text => plain = text ↔ t.Unaltered f g data)
      ((t.mapEscaped f g).render data) (t.render data) := by
  obtain ⟨indented, indentedIncluded⟩ := indented_of_parse parsed
  -- Whatever a partial includes is accounted for in the partial, so there is nothing more to ask of
  -- the nodes behind an inclusion.
  have atInclusion (name : String) {indent : String} (stack : List Json) {same : Prop}
      {plain out : Output} (plainIndent : IsPlain indent) (escapes : EscapesTo same plain out) :
      Corresponds
        (EscapesTo (same ∧ t.IncludedUnaltered g stack name ∧
          Everywhere (fun _ => []) (Node.Unaltered f (t.IncludedUnaltered g)) stack []))
        ((t.mapEscaped f g).renderPartial maxDepth name indent stack plain)
        (t.renderPartial maxDepth name indent stack out) := by
    rw [eq_true (show Everywhere (fun _ => []) _ stack [] from fun _ _ => nofun), and_true]
    exact renderPartial_mapEscaped lessensIncluded indentedIncluded maxDepth name stack plainIndent
      escapes
  have rendered := Node.renderAll_mapEscapedAll lessens atInclusion indented IsPlain.empty [data]
    (.refl {})
  refine rendered.bind fun plain out escapes => .ok ?_
  rw [escapes.text_eq_iff, true_and]
  rfl

end Template

end Stencil.Mustache
