import Stencil.Proofs.Mustache.Reach

/-!
# Outlines

The outline of a template is what it is besides text: its values, sections and partials. Which tags
stand on lines of their own, and what is dropped on account of that, concerns text alone, so the
outline can be read off the tags, and these decide whether the sections nest.

## Main definitions

* `Node.outlineAll`: nodes without text
* `Outline`: the outline of what is read so far
* `Outline.step`: what a tag does to it

## Main results

* `Reaches.outlineAll`: values that are met in nodes are met in their outline
* `Nesting.exists_foldlM_feed`: if the tags nest, so do the pieces that they stand in
-/

namespace Stencil.Mustache

mutual

/-- A node without the text in it. -/
def Node.outline : Node → List Node
  | .text _ => []
  | .value path escaped => [.value path escaped]
  | .block path inverted body => [.block path inverted (Node.outlineAll body)]
  | .inclusion name indent => [.inclusion name indent]
termination_by structural node => node

/-- Nodes without the text among and in them. -/
def Node.outlineAll : List Node → List Node
  | [] => []
  | node :: nodes => node.outline ++ Node.outlineAll nodes
termination_by structural nodes => nodes

end

namespace Node

theorem outlineAll_append (nodes others : List Node) :
    outlineAll (nodes ++ others) = outlineAll nodes ++ outlineAll others := by
  induction nodes with
  | nil => rfl
  | cons node nodes ih => rw [List.cons_append, outlineAll, ih, outlineAll, List.append_assoc]

theorem outlineAll_concat (nodes : List Node) (node : Node) :
    outlineAll (nodes ++ [node]) = outlineAll nodes ++ node.outline := by
  rw [outlineAll_append, outlineAll, outlineAll, List.append_nil]

theorem allInclusions_append (nodes others : List Node) :
    allInclusions (nodes ++ others) = allInclusions nodes ++ allInclusions others := by
  induction nodes with
  | nil => rfl
  | cons node nodes ih =>
    rw [List.cons_append, allInclusions, ih, allInclusions, List.append_assoc]

/-- The partials of nodes are those of their outline. -/
theorem allInclusions_outlineAll (nodes : List Node) :
    allInclusions (outlineAll nodes) = allInclusions nodes := by
  have all (nodes : List Node)
      (each : ∀ node ∈ nodes, allInclusions node.outline = node.inclusions) :
      allInclusions (outlineAll nodes) = allInclusions nodes := by
    induction nodes with
    | nil => rfl
    | cons node nodes ih =>
      obtain ⟨first, others⟩ := List.forall_mem_cons.mp each
      rw [outlineAll, allInclusions_append, first, ih others, allInclusions]
  have single (node : Node) : allInclusions node.outline = node.inclusions := by
    induction node with
    | text s => rfl
    | value path escaped => rfl
    | inclusion name indent => rfl
    | block path inverted body ih =>
      rw [outline, allInclusions, allInclusions, List.append_nil, inclusions, inclusions,
        all body ih]
  exact all nodes fun node _ => single node

end Node

section Reach

variable {partials : String → List Node} {stack stack' : List Json} {node' : Node}
  {nodes : List Node} {path : Path} {escaped : Bool}

theorem Reaches.append_left (reaches : Reaches partials stack nodes stack' node')
    (before : List Node) : Reaches partials stack (before ++ nodes) stack' node' := by
  induction before with
  | nil => exact reaches
  | cons node before ih => exact .later ih

/-- Values that are met in nodes are met in their outline. -/
theorem Reaches.outlineAll (reaches : Reaches partials stack nodes stack' (.value path escaped)) :
    Reaches partials stack (Node.outlineAll nodes) stack' (.value path escaped) := by
  generalize isValue : Node.value path escaped = node' at reaches
  induction reaches with
  | here =>
    subst isValue
    exact .here
  | later _ ih => exact (ih isValue).append_left _
  | inside isInner _ ih => exact .inside isInner (ih isValue)
  | included reaches _ => exact .included reaches

end Reach

/-! ### Reading an outline off the tags -/

/-- The outline of what is read so far: the sections that are open, the innermost first, each with
the outline of what stands before it, and the outline of what stands in the innermost one. -/
structure Outline where
  opened : List (Path × Bool × List Node) := []
  nodes : List Node := []

namespace Outline

/-- Adds nodes to an outline. -/
def add (o : Outline) (nodes : List Node) : Outline := { o with nodes := o.nodes ++ nodes }

theorem add_add (o : Outline) (nodes others : List Node) :
    (o.add nodes).add others = o.add (nodes ++ others) := by
  simp [add]

/-- What a tag does to an outline. A section ends if its own end comes next. Partials are left out,
as a partial's indent is told by text. -/
def step (o : Outline) : Tag → Option Outline
  | .comment | .delimiters _ => some o
  | .value path escaped => some (o.add [.value path escaped])
  | .sectionStart path inverted => some ⟨(path, inverted, o.nodes) :: o.opened, []⟩
  | .sectionEnd path =>
    match o.opened with
    | [] => none
    | (opening, inverted, before) :: outer =>
      if opening = path then some ⟨outer, before ++ [.block path inverted o.nodes]⟩ else none
  | .inclusion _ => none

end Outline

/-- The tag that a piece is. -/
def Piece.tag? : Piece → Option Tag
  | .text _ => none
  | .tag t _ => some t

namespace Nesting

/-- The outline of what is read so far. -/
def outline (n : Nesting) : Outline where
  opened := n.opened.map fun s => (s.path, s.inverted, Node.outlineAll s.before.reverse)
  nodes := Node.outlineAll n.nodes.reverse

variable (n : Nesting)

theorem outline_push (node : Node) : (n.push node).outline = n.outline.add node.outline := by
  simp [outline, push, Outline.add, Node.outlineAll_concat]

theorem outline_pushText (s : List Char) : (n.pushText s).outline = n.outline := by
  unfold pushText
  split
  · rfl
  · rw [outline_push, Node.outline, Outline.add, List.append_nil]

/-- Only text is dropped with the line of a tag. -/
theorem outline_of_ownLine? {m : Nesting} {blanks : List Char}
    (isOwn : n.ownLine? = some (m, blanks)) : m.outline = n.outline := by
  obtain ⟨opened, nodes, dropsNewline⟩ := n
  cases nodes with
  | nil =>
    cases opened with
    | nil =>
      cases isOwn
      rfl
    | cons enclosing outer =>
      simp only [ownLine?] at isOwn
      split at isOwn <;> cases isOwn
      rfl
  | cons node nodes =>
    cases node with
    | value path escaped | block path inverted body | inclusion name indent => cases isOwn
    | text s =>
      simp only [ownLine?] at isOwn
      split at isOwn
      · cases isOwn
      · obtain ⟨⟨kept, dropped⟩, -, isOwn⟩ := Option.map_eq_some_iff.mp isOwn
        split at isOwn <;> cases isOwn
        · rfl
        · simp [outline, Node.outlineAll_concat, Node.outline]

theorem outline_settleLine (endsLine : Bool) :
    (n.settleLine endsLine).1.outline = n.outline := by
  cases endsLine with
  | false => rfl
  | true =>
    simp only [settleLine, if_true]
    split
    · rename_i m blanks isOwn
      have same := outline_of_ownLine? _ isOwn
      exact same
    · rfl

theorem outline_feed_text (s : List Char) :
    ∃ n', n.feed (.text s) = .ok n' ∧ n'.outline = n.outline :=
  ⟨_, rfl, n.outline_pushText _⟩

variable {n}

/-- A tag does to what is read so far what it does to the outline. -/
theorem exists_feed_tag {tag : Tag} {o : Outline} (endsLine : Bool)
    (stepped : n.outline.step tag = some o) :
    ∃ n', n.feed (.tag tag endsLine) = .ok n' ∧ n'.outline = o := by
  have settled := n.outline_settleLine endsLine
  cases tag with
  | comment | delimiters d =>
    cases stepped
    exact ⟨_, rfl, settled⟩
  | value path escaped =>
    cases stepped
    exact ⟨_, rfl, n.outline_push _⟩
  | sectionStart path inverted =>
    cases stepped
    refine ⟨_, rfl, ?_⟩
    rw [← settled]
    rfl
  | inclusion name => cases stepped
  | sectionEnd path =>
    rw [← settled] at stepped
    simp only [feed]
    generalize (n.settleLine endsLine).1 = m at stepped ⊢
    obtain ⟨opened, nodes, dropsNewline⟩ := m
    cases opened with
    | nil => cases stepped
    | cons s outer =>
      simp only [Outline.step, outline, List.map_cons] at stepped
      split at stepped
      · rename_i same
        cases stepped
        refine ⟨_, if_pos same, ?_⟩
        simp [outline, Node.outlineAll_concat, Node.outline]
      · cases stepped

/-- If tags do something to the outline, pieces with these tags do the same to what is read. -/
theorem exists_foldlM_feed {pieces : List Piece} {o : Outline}
    (stepped : (pieces.filterMap Piece.tag?).foldlM Outline.step n.outline = some o) :
    ∃ n', pieces.foldlM feed n = .ok n' ∧ n'.outline = o := by
  induction pieces generalizing n with
  | nil =>
    cases stepped
    exact ⟨n, rfl, rfl⟩
  | cons piece pieces ih =>
    cases piece with
    | text s =>
      obtain ⟨m, fed, same⟩ := n.outline_feed_text s
      rw [← same] at stepped
      obtain ⟨n', fedOthers, isOutline⟩ := ih stepped
      refine ⟨n', ?_, isOutline⟩
      rw [List.foldlM_cons, fed]
      exact fedOthers
    | tag tag endsLine =>
      have isFirst : (.tag tag endsLine :: pieces).filterMap Piece.tag? =
          tag :: pieces.filterMap Piece.tag? := rfl
      rw [isFirst, List.foldlM_cons] at stepped
      obtain ⟨middle, first, others⟩ := Option.bind_eq_some_iff.mp stepped
      obtain ⟨m, fed, rfl⟩ := exists_feed_tag endsLine first
      obtain ⟨n', fedOthers, isOutline⟩ := ih others
      refine ⟨n', ?_, isOutline⟩
      rw [List.foldlM_cons, fed]
      exact fedOthers

end Nesting

end Stencil.Mustache
