import Stencil.Mustache.Render
import Stencil.Proofs.Except
import Stencil.Proofs.Mustache.Escaped

/-!
# What rendering comes to

Which tags of a template are met when it is rendered depends on the data: a section's contents are
rendered for no value, for one or for several, and a partial wherever it is included. `Reaches` says
which nodes are met, and which values are at hand there. All of these are values of the data, at
some depth.

## Main definitions

* `Json.Contains`: a value and what is in it
* `bodyStacks`: the values at hand for each rendering of a section's contents
* `Reaches`: a node that is met, and the values at hand there
* `Everywhere`: something is so at every node that is met

## Main results

* `Reaches.contained`: the values at hand are values of the data
* `Everywhere.block_iff`, `Everywhere.inclusion_iff`: what is met from a section or a partial on
-/

namespace Stencil

/-! ### Values in values -/

/-- A value and what is in it, at any depth. -/
inductive Json.Contains : Json → Json → Prop where
  | refl (value : Json) : Contains value value
  | item {items : List Json} {item value : Json} (isItem : item ∈ items)
    (inside : Contains item value) : Contains (.array items) value
  | member {members : List (String × Json)} {key : String} {child value : Json}
    (isMember : (key, child) ∈ members) (inside : Contains child value) :
    Contains (.object members) value

namespace Json.Contains

variable {a b c : Json}

theorem trans (first : a.Contains b) (second : b.Contains c) : a.Contains c := by
  induction first with
  | refl => exact second
  | item isItem _ ih => exact .item isItem (ih second)
  | member isMember _ ih => exact .member isMember (ih second)

theorem of_member? {key : String} (found : a.member? key = some b) : a.Contains b := by
  cases a with
  | object members =>
    obtain ⟨before, after, rfl, -⟩ := List.lookup_eq_some_iff.mp found
    exact .member (List.mem_append_right before List.mem_cons_self) (.refl b)
  | null | bool value | number value | string value | array items => cases found

theorem of_foldlM_member? {keys : List String}
    (found : keys.foldlM (fun value key => value.member? key) a = some b) : a.Contains b := by
  induction keys generalizing a with
  | nil =>
    obtain rfl := Option.some.inj found
    exact .refl a
  | cons key keys ih =>
    rw [List.foldlM_cons] at found
    obtain ⟨child, isMember, found⟩ := Option.bind_eq_some_iff.mp found
    exact (of_member? isMember).trans (ih found)

end Json.Contains

namespace Mustache

open Json (Contains)

/-- What a path names is in one of the values at hand. -/
theorem Path.exists_contains_of_find? {stack : List Json} {path : Path} {value : Json}
    (found : path.find? stack = some value) : ∃ top ∈ stack, top.Contains value := by
  cases path with
  | nil => exact ⟨value, List.mem_of_mem_head? found, .refl value⟩
  | cons key keys =>
    obtain ⟨first, isFirst, found⟩ := Option.bind_eq_some_iff.mp found
    obtain ⟨top, atHand, isMember⟩ := List.exists_of_findSome?_eq_some isFirst
    exact ⟨top, atHand, (Contains.of_member? isMember).trans (.of_foldlM_member? found)⟩

/-! ### Sections -/

/-- The values at hand for each rendering of a section's contents. -/
def bodyStacks (stack : List Json) (path : Path) (inverted : Bool) : List (List Json) :=
  if inverted then
    if isAbsent (path.find? stack) then [stack] else []
  else
    match Repetition.of (path.find? stack) with
    | .asIs => [stack]
    | .each values => values.map (· :: stack)

/-- A section repeats its contents for what was found, or for what is in that. -/
theorem Repetition.contains_of_mem {value top : Json} {values : List Json}
    (repeats : Repetition.of (some value) = .each values) (isMember : top ∈ values) :
    value.Contains top := by
  cases value with
  | null =>
    cases repeats
    cases isMember
  | bool truth =>
    cases truth
    · cases repeats
      cases isMember
    · cases repeats
  | number n | object members =>
    cases repeats
    obtain rfl := List.mem_singleton.mp isMember
    exact .refl _
  | string s =>
    cases repeats
    split at isMember
    · cases isMember
    · obtain rfl := List.mem_singleton.mp isMember
      exact .refl _
  | array items =>
    cases repeats
    exact .item isMember (.refl top)

/-- The values at hand in a section are in those around it. -/
theorem exists_contains_of_mem_bodyStacks {stack inner : List Json} {path : Path}
    {inverted : Bool} (isInner : inner ∈ bodyStacks stack path inverted) {value : Json}
    (atHand : value ∈ inner) : ∃ top ∈ stack, top.Contains value := by
  unfold bodyStacks at isInner
  split at isInner
  · split at isInner
    · obtain rfl := List.mem_singleton.mp isInner
      exact ⟨value, atHand, .refl value⟩
    · cases isInner
  · split at isInner
    · obtain rfl := List.mem_singleton.mp isInner
      exact ⟨value, atHand, .refl value⟩
    · rename_i values repeats
      obtain ⟨top, isTop, rfl⟩ := List.mem_map.mp isInner
      rcases List.mem_cons.mp atHand with rfl | outer
      · cases found : path.find? stack with
        | none =>
          rw [found] at repeats
          cases repeats
          cases isTop
        | some whole =>
          rw [found] at repeats
          obtain ⟨bottom, isBottom, contains⟩ := Path.exists_contains_of_find? found
          exact ⟨bottom, isBottom, contains.trans (Repetition.contains_of_mem repeats isTop)⟩
      · exact ⟨value, outer, .refl value⟩

section Render

variable (partials : Inclusion) (indent : String) (stack : List Json) (out : Output)

/-- Nodes are rendered one after the other. -/
theorem Node.renderAll_eq_foldlM (nodes : List Node) :
    Node.renderAll partials indent stack nodes out =
      nodes.foldlM (fun out node => node.render partials indent stack out) out := by
  induction nodes generalizing out with
  | nil => rfl
  | cons node nodes ih =>
    rw [renderAll, List.foldlM_cons]
    exact congrArg (_ >>= ·) (funext ih)

/-- A section's contents are rendered for one after the other of what they are repeated for. -/
theorem Node.render_block (path : Path) (inverted : Bool) (body : List Node) :
    (Node.block path inverted body).render partials indent stack out =
      (bodyStacks stack path inverted).foldlM
        (fun out inner => Node.renderAll partials indent inner body out) out := by
  have once : ([stack] : List (List Json)).foldlM
      (fun out inner => Node.renderAll partials indent inner body out) out =
      Node.renderAll partials indent stack body out := by
    rw [List.foldlM_cons]
    exact bind_pure (m := Except RenderFault) _
  cases inverted with
  | true =>
    rw [render, bodyStacks, if_pos rfl]
    split
    · exact once.symm
    · rfl
  | false =>
    rw [render, bodyStacks, if_neg (by decide)]
    cases Repetition.of (path.find? stack) with
    | asIs => exact once.symm
    | each values => simp only [List.foldlM_map]

end Render

/-! ### Nodes that are met -/

/-- Rendering nodes, given the values at hand, comes to a node with the given values at hand there,
unless it breaks off before. -/
inductive Reaches (partials : String → List Node) :
    List Json → List Node → List Json → Node → Prop where
  | here {stack : List Json} {node : Node} {nodes : List Node} :
    Reaches partials stack (node :: nodes) stack node
  | later {stack stack' : List Json} {node node' : Node} {nodes : List Node}
    (reaches : Reaches partials stack nodes stack' node') :
    Reaches partials stack (node :: nodes) stack' node'
  | inside {stack inner stack' : List Json} {path : Path} {inverted : Bool} {body nodes : List Node}
    {node' : Node} (isInner : inner ∈ bodyStacks stack path inverted)
    (reaches : Reaches partials inner body stack' node') :
    Reaches partials stack (.block path inverted body :: nodes) stack' node'
  | included {stack stack' : List Json} {name indent : String} {nodes : List Node} {node' : Node}
    (reaches : Reaches partials stack (partials name) stack' node') :
    Reaches partials stack (.inclusion name indent :: nodes) stack' node'

variable {partials : String → List Node} {stack stack' : List Json} {node node' : Node}
  {nodes body : List Node} {path : Path} {inverted : Bool} {name indent : String}

namespace Reaches

/-- The values at hand at a node are in those at hand at the start. -/
theorem contained (reaches : Reaches partials stack nodes stack' node') {value : Json}
    (atHand : value ∈ stack') : ∃ top ∈ stack, top.Contains value := by
  induction reaches with
  | here => exact ⟨value, atHand, .refl value⟩
  | later _ ih | included _ ih => exact ih atHand
  | inside isInner _ ih =>
    obtain ⟨top, isTop, contains⟩ := ih atHand
    obtain ⟨bottom, isBottom, around⟩ := exists_contains_of_mem_bodyStacks isInner isTop
    exact ⟨bottom, isBottom, around.trans contains⟩

/-- What is found at a node that is met is in the data. -/
theorem contains_of_find? {data value : Json}
    (reaches : Reaches partials [data] nodes stack' node')
    (found : path.find? stack' = some value) : data.Contains value := by
  obtain ⟨top, atHand, contains⟩ := Path.exists_contains_of_find? found
  obtain ⟨bottom, isData, around⟩ := reaches.contained atHand
  obtain rfl := List.mem_singleton.mp isData
  exact around.trans contains

end Reaches

@[simp] theorem not_reaches_nil : ¬ Reaches partials stack [] stack' node' := nofun

theorem reaches_cons_iff :
    Reaches partials stack (node :: nodes) stack' node' ↔
      Reaches partials stack [node] stack' node' ∨ Reaches partials stack nodes stack' node' := by
  constructor
  · intro reaches
    cases reaches with
    | here => exact .inl .here
    | later reaches => exact .inr reaches
    | inside isInner reaches => exact .inl (.inside isInner reaches)
    | included reaches => exact .inl (.included reaches)
  · rintro (first | others)
    · cases first with
      | here => exact .here
      | later reaches => exact absurd reaches not_reaches_nil
      | inside isInner reaches => exact .inside isInner reaches
      | included reaches => exact .included reaches
    · exact .later others

/-- What is met in one of the nodes is met in all of them. -/
theorem Reaches.of_mem (reaches : Reaches partials stack [node] stack' node')
    (isMember : node ∈ nodes) : Reaches partials stack nodes stack' node' := by
  induction nodes with
  | nil => cases isMember
  | cons first others ih =>
    rcases List.mem_cons.mp isMember with rfl | isOther
    · exact reaches_cons_iff.mpr (.inl reaches)
    · exact .later (ih isOther)

@[simp] theorem reaches_text_iff {s : String} :
    Reaches partials stack [.text s] stack' node' ↔ stack' = stack ∧ node' = .text s := by
  constructor
  · intro reaches
    cases reaches with
    | here => exact ⟨rfl, rfl⟩
    | later reaches => exact absurd reaches not_reaches_nil
  · rintro ⟨rfl, rfl⟩
    exact .here

@[simp] theorem reaches_value_iff {escaped : Bool} :
    Reaches partials stack [.value path escaped] stack' node' ↔
      stack' = stack ∧ node' = .value path escaped := by
  constructor
  · intro reaches
    cases reaches with
    | here => exact ⟨rfl, rfl⟩
    | later reaches => exact absurd reaches not_reaches_nil
  · rintro ⟨rfl, rfl⟩
    exact .here

theorem reaches_block_iff :
    Reaches partials stack [.block path inverted body] stack' node' ↔
      (stack' = stack ∧ node' = .block path inverted body) ∨
        ∃ inner ∈ bodyStacks stack path inverted, Reaches partials inner body stack' node' := by
  constructor
  · intro reaches
    cases reaches with
    | here => exact .inl ⟨rfl, rfl⟩
    | later reaches => exact absurd reaches not_reaches_nil
    | inside isInner reaches => exact .inr ⟨_, isInner, reaches⟩
  · rintro (⟨rfl, rfl⟩ | ⟨inner, isInner, reaches⟩)
    · exact .here
    · exact .inside isInner reaches

theorem reaches_inclusion_iff :
    Reaches partials stack [.inclusion name indent] stack' node' ↔
      (stack' = stack ∧ node' = .inclusion name indent) ∨
        Reaches partials stack (partials name) stack' node' := by
  constructor
  · intro reaches
    cases reaches with
    | here => exact .inl ⟨rfl, rfl⟩
    | later reaches => exact absurd reaches not_reaches_nil
    | included reaches => exact .inr reaches
  · rintro (⟨rfl, rfl⟩ | reaches)
    · exact .here
    · exact .included reaches

/-- Something is so at every node that is met, given the values at hand there. -/
def Everywhere (partials : String → List Node) (holds : List Json → Node → Prop)
    (stack : List Json) (nodes : List Node) : Prop :=
  ∀ stack' node', Reaches partials stack nodes stack' node' → holds stack' node'

namespace Everywhere

variable {holds : List Json → Node → Prop}

theorem cons_iff :
    Everywhere partials holds stack (node :: nodes) ↔
      Everywhere partials holds stack [node] ∧ Everywhere partials holds stack nodes := by
  constructor
  · refine fun everywhere => ⟨fun stack' node' reaches => ?_, fun stack' node' reaches => ?_⟩
    · exact everywhere stack' node' (reaches_cons_iff.mpr (.inl reaches))
    · exact everywhere stack' node' (.later reaches)
  · rintro ⟨first, others⟩ stack' node' reaches
    exact (reaches_cons_iff.mp reaches).elim (first stack' node') (others stack' node')

theorem iff_forall :
    Everywhere partials holds stack nodes ↔
      ∀ node ∈ nodes, Everywhere partials holds stack [node] := by
  induction nodes with
  | nil => exact ⟨fun _ => List.forall_mem_nil _, fun _ _ _ => nofun⟩
  | cons node nodes ih => rw [cons_iff, List.forall_mem_cons, ih]

theorem text_iff {s : String} :
    Everywhere partials holds stack [.text s] ↔ holds stack (.text s) := by
  refine ⟨fun everywhere => everywhere stack _ .here, fun here stack' node' reaches => ?_⟩
  obtain ⟨rfl, rfl⟩ := reaches_text_iff.mp reaches
  exact here

theorem value_iff {escaped : Bool} :
    Everywhere partials holds stack [.value path escaped] ↔ holds stack (.value path escaped) := by
  refine ⟨fun everywhere => everywhere stack _ .here, fun here stack' node' reaches => ?_⟩
  obtain ⟨rfl, rfl⟩ := reaches_value_iff.mp reaches
  exact here

theorem block_iff :
    Everywhere partials holds stack [.block path inverted body] ↔
      holds stack (.block path inverted body) ∧
        ∀ inner ∈ bodyStacks stack path inverted, Everywhere partials holds inner body := by
  constructor
  · refine fun everywhere =>
      ⟨everywhere stack _ .here, fun inner isInner stack' node' reaches => ?_⟩
    exact everywhere stack' node' (.inside isInner reaches)
  · rintro ⟨here, within⟩ stack' node' reaches
    rcases reaches_block_iff.mp reaches with ⟨rfl, rfl⟩ | ⟨inner, isInner, reaches⟩
    · exact here
    · exact within inner isInner stack' node' reaches

theorem inclusion_iff :
    Everywhere partials holds stack [.inclusion name indent] ↔
      holds stack (.inclusion name indent) ∧ Everywhere partials holds stack (partials name) := by
  constructor
  · refine fun everywhere => ⟨everywhere stack _ .here, fun stack' node' reaches => ?_⟩
    exact everywhere stack' node' (.included reaches)
  · rintro ⟨here, within⟩ stack' node' reaches
    rcases reaches_inclusion_iff.mp reaches with ⟨rfl, rfl⟩ | reaches
    · exact here
    · exact within stack' node' reaches

end Everywhere

end Mustache

end Stencil
