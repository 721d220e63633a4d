import Stencil.Proofs.Mustache.Outcome

/-!
# Filled templates

A template without partials has a plain meaning: a value stands for its text, a section for its
contents, once for each time they are repeated, and text stands for itself. Rendering writes that
and nothing else, if no value is escaped and each that is met can be written.

## Main definitions

* `Node.fill`: the text that a node stands for, values being written as they are
* `Output.Writes`: a computation that writes a given text and succeeds

## Main results

* `Node.writes_fillAll`: nodes without escaped values are rendered as what they stand for
-/

namespace Stencil.Mustache

/-- The text of what was found; what has none stands for nothing. -/
def textOf (found : Option Json) : String := (found.bind Json.text?).getD ""

mutual

/-- The text that a node stands for, given the values at hand. Values are written as they are,
whatever their tags tell, and partials are left out. -/
def Node.fill (stack : List Json) : Node → String
  | .text s => s
  | .value path _ => textOf (path.find? stack)
  | .block path inverted body =>
    String.join ((bodyStacks stack path inverted).map fun inner => Node.fillAll inner body)
  | .inclusion _ _ => ""
termination_by structural node => node

/-- The text that nodes stand for, given the values at hand. -/
def Node.fillAll (stack : List Json) : List Node → String
  | [] => ""
  | node :: nodes => node.fill stack ++ Node.fillAll stack nodes
termination_by structural nodes => nodes

end

theorem Node.fillAll_eq_join (stack : List Json) (nodes : List Node) :
    fillAll stack nodes = String.join (nodes.map (fill stack)) := by
  induction nodes with
  | nil => rfl
  | cons node nodes ih => rw [fillAll, ih, List.map_cons, String.join_cons]

namespace Output

/-- The computation succeeds and adds the text to what is written. -/
def Writes (x : Except RenderFault Output) (out : Output) (s : String) : Prop :=
  ∃ out', x = .ok out' ∧ out'.text = out.text ++ s

theorem writes_nothing (out : Output) : Writes (.ok out) out "" :=
  ⟨out, rfl, String.append_empty.symm⟩

theorem Writes.foldlM {α : Type} {step : Output → α → Except RenderFault Output}
    {piece : α → String} {as : List α} (each : ∀ a ∈ as, ∀ out, Writes (step out a) out (piece a))
    (out : Output) : Writes (as.foldlM step out) out (String.join (as.map piece)) := by
  induction as generalizing out with
  | nil => exact writes_nothing out
  | cons a as ih =>
    obtain ⟨first, others⟩ := List.forall_mem_cons.mp each
    obtain ⟨next, isNext, isText⟩ := first out
    obtain ⟨last, isLast, isAll⟩ := ih others next
    refine ⟨last, ?_, ?_⟩
    · rw [List.foldlM_cons, isNext]
      exact isLast
    · rw [isAll, isText, List.map_cons, String.join_cons, String.append_assoc]

theorem writes_writeText (out : Output) (s : String) : Writes (.ok (out.writeText "" s)) out s :=
  ⟨out.write s, rfl, rfl⟩

/-- What is found and can be written is written as it is, if it is not escaped. -/
theorem writes_writeValue (out : Output) {found : Option Json} (writable : IsWritable found) :
    Writes (out.writeValue "" false found) out (textOf found) := by
  cases found with
  | none => exact writes_nothing out
  | some value =>
    have unindented :
        ({ out with text := "" } : Output).writeIndent "" = { out with text := "" } := by
      unfold writeIndent
      split <;> rfl
    cases value with
    | null => exact ⟨_, rfl, by rw [unindented]; rfl⟩
    | number n | string s =>
      exact ⟨_, rfl, by rw [unindented]; exact congrArg (out.text ++ ·) String.empty_append⟩
    | bool truth | array items | object members =>
      exact absurd (writable _ rfl) (by rintro (same | hasText) <;> contradiction)

end Output

namespace Node

variable {partials : String → List Node} {stack : List Json} {nodes : List Node}
  (inclusion : Inclusion)

theorem allInclusions_eq_nil_iff :
    allInclusions nodes = [] ↔ ∀ node ∈ nodes, node.inclusions = [] := by
  induction nodes with
  | nil => exact ⟨fun _ => List.forall_mem_nil _, fun _ => rfl⟩
  | cons node nodes ih =>
    rw [allInclusions, List.append_eq_nil_iff, List.forall_mem_cons, ih]

/-- Nodes are rendered as what they stand for, if each of them is. -/
theorem writes_renderAll_of_forall
    (each : ∀ node ∈ nodes, ∀ out,
      Output.Writes (node.unescaped.render inclusion "" stack out) out (node.fill stack))
    (out : Output) :
    Output.Writes (renderAll inclusion "" stack (unescapedAll nodes) out) out
      (fillAll stack nodes) := by
  rw [renderAll_eq_foldlM, unescapedAll, mapEscapedAll_eq_map, List.foldlM_map, fillAll_eq_join]
  exact Output.Writes.foldlM each out

theorem writes_fill {node : Node} (noInclusions : node.inclusions = [])
    (writable : ∀ stack' path escaped, Reaches partials stack [node] stack' (.value path escaped) →
      IsWritable (path.find? stack')) (out : Output) :
    Output.Writes (node.unescaped.render inclusion "" stack out) out (node.fill stack) := by
  induction node generalizing stack out with
  | text s => exact out.writes_writeText s
  | value path escaped => exact out.writes_writeValue (writable stack path escaped .here)
  | inclusion name indent => cases noInclusions
  | block path inverted body ih =>
    rw [unescaped, mapEscaped, render_block, fill]
    refine Output.Writes.foldlM (fun inner isInner out => ?_) out
    refine writes_renderAll_of_forall inclusion (fun node isMember out => ?_) out
    refine ih node isMember (allInclusions_eq_nil_iff.mp noInclusions node isMember) ?_ out
    intro stack' path' escaped reaches
    exact writable stack' path' escaped (.inside isInner (reaches.of_mem isMember))

/-- Nodes none of whose values is escaped are rendered as what they stand for, provided that they
include no partials and that each value that is met can be written. -/
theorem writes_fillAll (noInclusions : allInclusions nodes = [])
    (writable : ∀ stack' path escaped, Reaches partials stack nodes stack' (.value path escaped) →
      IsWritable (path.find? stack')) (out : Output) :
    Output.Writes (renderAll inclusion "" stack (unescapedAll nodes) out) out
      (fillAll stack nodes) := by
  refine writes_renderAll_of_forall inclusion (fun node isMember out => ?_) out
  have included := allInclusions_eq_nil_iff.mp noInclusions node isMember
  exact writes_fill inclusion included (fun stack' path escaped reaches =>
    writable stack' path escaped (reaches.of_mem isMember)) out

end Node

end Stencil.Mustache
