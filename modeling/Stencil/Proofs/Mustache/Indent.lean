import Stencil.Mustache.Template
import Stencil.Proofs.Except

/-!
# Indents of partials

The indent of a partial is what stands before its tag on a line of its own, so it consists of
blanks.

## Main definitions

* `Node.Indented`: all partials in a node have blanks for an indent

## Main results

* `Node.indented_of_parse`, `Template.indented_of_parsePartial`: this is so in what is read
-/

namespace Stencil.Mustache

open Stencil.Text

/-- All partials in a node have blanks for an indent. -/
inductive Node.Indented : Node → Prop where
  | text (s : String) : Indented (.text s)
  | value (path : Path) (escaped : Bool) : Indented (.value path escaped)
  | block {path : Path} {inverted : Bool} {body : List Node}
    (within : ∀ node ∈ body, Indented node) : Indented (.block path inverted body)
  | inclusion {name indent : String} (blank : ∀ c ∈ indent.toList, isBlank c = true) :
    Indented (.inclusion name indent)

theorem isBlank_of_splitIndent {s kept blanks : List Char} {first : Bool}
    (split : splitIndent s first = some (kept, blanks)) : ∀ c ∈ blanks, isBlank c = true := by
  simp only [splitIndent] at split
  split at split
  · obtain ⟨-, rfl⟩ := Prod.mk.inj (Option.some.inj split)
    intro c isMember
    have taken := List.all_eq_true.mp List.all_takeWhile c (List.mem_reverse.mp isMember)
    simp only [Bool.and_eq_true] at taken
    exact taken.2
  · cases split

namespace Nesting

/-- All partials that are read so far have blanks for an indent. -/
structure Indented (n : Nesting) : Prop where
  nodes : ∀ node ∈ n.nodes, node.Indented
  opened : ∀ s ∈ n.opened, ∀ node ∈ s.before, node.Indented

variable {n m : Nesting}

theorem Indented.push (indented : n.Indented) {node : Node} (isIndented : node.Indented) :
    (n.push node).Indented :=
  ⟨List.forall_mem_cons.mpr ⟨isIndented, indented.nodes⟩, indented.opened⟩

theorem Indented.pushText (indented : n.Indented) (s : List Char) : (n.pushText s).Indented := by
  unfold Nesting.pushText
  split
  · exact ⟨indented.nodes, indented.opened⟩
  · exact indented.push (.text _)

theorem Indented.ownLine? (indented : n.Indented) {blanks : List Char}
    (isOwn : n.ownLine? = some (m, blanks)) :
    m.Indented ∧ ∀ c ∈ blanks, isBlank c = true := by
  obtain ⟨opened, nodes, dropsNewline⟩ := n
  have itself : (⟨opened, nodes, dropsNewline⟩, []) = (m, blanks) →
      m.Indented ∧ ∀ c ∈ blanks, isBlank c = true := by
    rintro ⟨⟩
    exact ⟨indented, List.forall_mem_nil _⟩
  unfold Nesting.ownLine? at isOwn
  split at isOwn
  · rename_i s before isText
    split at isOwn
    · cases isOwn
    · obtain ⟨⟨kept, found⟩, split, isState⟩ := Option.map_eq_some_iff.mp isOwn
      simp only at isState
      split at isState
      · exact itself isState
      · obtain ⟨rfl, rfl⟩ := Prod.mk.inj isState
        have others := List.forall_mem_cons.mp (isText ▸ indented.nodes)
        exact ⟨⟨List.forall_mem_cons.mpr ⟨.text _, others.2⟩, indented.opened⟩,
          isBlank_of_splitIndent split⟩
  · cases isOwn
  · split at isOwn
    · exact itself (Option.some.inj isOwn)
    · split at isOwn
      · exact itself (Option.some.inj isOwn)
      · cases isOwn

theorem Indented.settleLine (indented : n.Indented) (endsLine : Bool) :
    (n.settleLine endsLine).1.Indented ∧
      ∀ c ∈ (n.settleLine endsLine).2.1, isBlank c = true := by
  have undropped : ({ n with dropsNewline := false } : Nesting).Indented :=
    ⟨indented.nodes, indented.opened⟩
  unfold Nesting.settleLine
  simp only
  split
  · split
    · rename_i m blanks isOwn
      obtain ⟨isIndented, blank⟩ := undropped.ownLine? isOwn
      exact ⟨⟨isIndented.nodes, isIndented.opened⟩, blank⟩
    · exact ⟨undropped, List.forall_mem_nil _⟩
  · exact ⟨undropped, List.forall_mem_nil _⟩

theorem Indented.close (indented : n.Indented) {path : Path} (closed : n.close path = .ok m) :
    m.Indented := by
  unfold Nesting.close at closed
  split at closed
  · cases closed
  · rename_i s outer isOpened
    split at closed
    · obtain rfl := Except.ok.inj closed
      obtain ⟨inner, others⟩ := List.forall_mem_cons.mp (isOpened ▸ indented.opened)
      refine ⟨List.forall_mem_cons.mpr ⟨.block fun node isMember => ?_, inner⟩, others⟩
      exact indented.nodes node (List.mem_reverse.mp isMember)
    · cases closed

theorem Indented.feed (indented : n.Indented) {piece : Piece} (fed : n.feed piece = .ok m) :
    m.Indented := by
  cases piece with
  | text s =>
    obtain rfl := Except.ok.inj fed
    exact indented.pushText _
  | tag tag endsLine =>
    obtain ⟨settled, blank⟩ := indented.settleLine endsLine
    cases tag with
    | value path escaped =>
      obtain rfl := Except.ok.inj fed
      exact indented.push (.value path escaped)
    | comment | delimiters d =>
      obtain rfl := Except.ok.inj fed
      exact settled
    | sectionStart path inverted =>
      obtain rfl := Except.ok.inj fed
      exact ⟨List.forall_mem_nil _, List.forall_mem_cons.mpr ⟨settled.nodes, settled.opened⟩⟩
    | sectionEnd path => exact settled.close fed
    | inclusion name =>
      obtain rfl := Except.ok.inj fed
      refine ⟨List.forall_mem_cons.mpr ⟨.inclusion ?_, settled.nodes⟩, settled.opened⟩
      rwa [String.toList_ofList]

theorem Indented.foldlM (indented : n.Indented) {pieces : List Piece}
    (fed : pieces.foldlM Nesting.feed n = .ok m) : m.Indented :=
  of_foldlM_eq_ok (fun _ _ _ _ before isNext => before.feed isNext) indented fed

end Nesting

/-- In a template that is read, all partials have blanks for an indent. -/
theorem Node.indented_of_parse {text : String} {nodes : List Node}
    (parsed : Node.parse text = .ok nodes) : ∀ node ∈ nodes, node.Indented := by
  obtain ⟨n, fed, finished⟩ := bind_eq_ok_iff.mp parsed
  have indented : n.Indented :=
    Nesting.Indented.foldlM ⟨List.forall_mem_nil _, List.forall_mem_nil _⟩ fed
  split at finished
  · cases finished
  · unfold Nesting.finish at finished
    split at finished
    · obtain rfl := Except.ok.inj finished
      exact fun node isMember => indented.nodes node (List.mem_reverse.mp isMember)
    · cases finished

theorem Template.indented_of_parsePartial {read : FileReader} {name : String} {nodes : List Node}
    (parsed : Template.parsePartial read name = .ok nodes) : ∀ node ∈ nodes, node.Indented := by
  unfold Template.parsePartial at parsed
  split at parsed
  · exact Node.indented_of_parse parsed
  · obtain rfl := Except.ok.inj parsed
    exact List.forall_mem_nil _
  · cases parsed

end Stencil.Mustache
