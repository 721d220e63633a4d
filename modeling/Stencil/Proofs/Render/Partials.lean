import Mathlib.Data.List.Basic
import Stencil.Proofs.Mustache.Unaltered
import Stencil.Proofs.Render.AsWritten

/-!
# Values in partials

Ampersands are put into a template, not into its partials. These have the nodes of their files as
they stand, so a value in a partial is escaped if its tag has no ampersand of its own, and it is
written as it is only if it is plain.

## Main results

* `renderText_of_partials`: what comes of a template with partials
-/

namespace Stencil

namespace Mustache

/-- If nothing changes in a template itself, it is unaltered exactly if this is so of the partials
in it. -/
theorem Template.unaltered_id_iff (t : Template) (g : Bool → Bool) (data : Json) :
    t.Unaltered id g data ↔
      ∀ stack name indent, Reaches (fun _ => []) [data] t.nodes stack (.inclusion name indent) →
        t.IncludedUnaltered g stack name := by
  constructor
  · exact fun unaltered stack name indent reaches =>
      unaltered stack (.inclusion name indent) reaches
  · intro included stack node reaches
    cases node with
    | text s | block path inverted body => exact trivial
    | value path escaped => exact .inl rfl
    | inclusion name indent => exact included stack name indent reaches

/-- If nothing is escaped any more in a partial, it is unaltered exactly if all values that were
escaped are plain. -/
theorem Template.includedUnaltered_iff (t : Template) (stack : List Json) (name : String) :
    t.IncludedUnaltered (fun _ => false) stack name ↔
      ∀ stack' path, Reaches t.nodesOf stack (t.nodesOf name) stack' (.value path true) →
        IsPlain (textOf (path.find? stack')) := by
  constructor
  · intro unaltered stack' path reaches
    exact (unaltered stack' (.value path true) reaches).resolve_left Bool.false_ne_true
  · intro plain stack' node reaches
    cases node with
    | text s | block path inverted body | inclusion name indent => exact trivial
    | value path escaped =>
      cases escaped with
      | false => exact .inl rfl
      | true => exact .inr (plain stack' path reaches)

end Mustache

open Mustache

/-- **Values in partials.** Every partial that is met has the nodes of its file as it stands. What
comes of the template is what would come of it if its partials, too, wrote all values as they are,
exactly if every escaped value that is met in a partial has a text without special characters. -/
theorem renderText_of_partials {read : FileReader} {template : String} {t : Template}
    (parsed : Template.parse read (verbatimTemplate template) = .ok t) (data : Json) :
    (∀ stack name indent, Reaches t.nodesOf [data] t.nodes stack (.inclusion name indent) →
      Template.parsePartial read name = .ok (t.nodesOf name)) ∧
    Corresponds
      (fun plain text => plain = text ↔
        ∀ stack name indent, Reaches (fun _ => []) [data] t.nodes stack (.inclusion name indent) →
          ∀ stack' path, Reaches t.nodesOf stack (t.nodesOf name) stack' (.value path true) →
            IsPlain (textOf (path.find? stack')))
      (((t.mapEscaped id fun _ => false).render data).mapError RenderFailure.unwritable)
      (renderText read template data) := by
  refine ⟨fun stack name indent => Template.parsePartial_of_reaches parsed, ?_⟩
  have rendered : Corresponds
      (fun plain text => plain = text ↔ t.Unaltered id (fun _ => false) data)
      ((t.mapEscaped id fun _ => false).render data) (t.render data) :=
    Template.render_mapEscaped (fun _ => id) (fun _ never => absurd never Bool.false_ne_true)
      parsed data
  simp only [Template.unaltered_id_iff, Template.includedUnaltered_iff] at rendered
  rw [renderText_eq_renderAsWritten, renderAsWritten_of_parse parsed]
  exact rendered.mapError _

namespace Sample

/-- A directory with the file `p.mustache`, whose text is `{{x}}`. -/
def oneFile : FileReader := fun path =>
  if path = "./p.mustache" then .ok "\x7b\x7bx\x7d\x7d" else .error .missing

/-- What the template `{{>p}}` is read as. -/
def including : Template := ⟨[.inclusion "p" ""], [("p", [.value ["x"] true])]⟩

def lessThan : Json := .object [("x", .string "<")]

theorem parse_including :
    Template.parse oneFile (verbatimTemplate "\x7b\x7b>p\x7d\x7d") = .ok including := by
  have isPartial : Template.parsePartial oneFile "p" = .ok [.value ["x"] true] := by decide +kernel
  have isMentioned : Node.allInclusions including.nodes = ["p"] := rfl
  refine Template.parse_eq_ok_iff.mpr ⟨by decide +kernel, ?_⟩
  obtain ⟨limit, isLimit⟩ : ∃ limit, Template.maxPartials = limit + 1 :=
    Nat.exists_eq_succ_of_ne_zero (by decide)
  rw [isMentioned, isLimit, Template.parsePartials_cons limit [] rfl isPartial]
  exact Template.parsePartials_nil limit _

/-- The value in the partial is escaped. -/
theorem renderText_including :
    renderText oneFile "\x7b\x7b>p\x7d\x7d" lessThan = .ok "&lt;" := by
  obtain ⟨depth, isDepth⟩ : ∃ depth, Template.maxDepth = depth + 1 :=
    Nat.exists_eq_succ_of_ne_zero (by decide)
  have rendered : including.render lessThan = .ok "&lt;" := by
    rw [Template.render, isDepth]
    rfl
  rw [renderText_eq_renderAsWritten, renderAsWritten_of_parse parse_including, rendered]
  rfl

end Sample

/-- What is written for the template `{{>p}}` is not what it would be without escaping. -/
theorem renderText_of_partials_including :
    Template.parse Sample.oneFile (verbatimTemplate "\x7b\x7b>p\x7d\x7d") = .ok Sample.including ∧
      ∃ plain, (Sample.including.mapEscaped id fun _ => false).render Sample.lessThan = .ok plain ∧
        renderText Sample.oneFile "\x7b\x7b>p\x7d\x7d" Sample.lessThan ≠ .ok plain := by
  obtain ⟨-, corresponds⟩ := renderText_of_partials Sample.parse_including Sample.lessThan
  refine ⟨Sample.parse_including, ?_⟩
  rcases corresponds.error_or_ok with ⟨fault, -, failed⟩ | ⟨plain, text, isPlain, isText, isSame⟩
  · nomatch Sample.renderText_including.symm.trans failed
  · refine ⟨plain, mapError_eq_ok_iff.mp isPlain, ?_⟩
    rw [isText]
    intro same
    have isPlain : IsPlain "<" :=
      isSame.mp (Except.ok.inj same).symm [Sample.lessThan] "p" "" .here
        [Sample.lessThan] ["x"] .here
    exact absurd isPlain (by decide)

/-- A value is written as it is, but not in a partial with the very same tag. -/
theorem renderText_including_lessThan :
    renderText Sample.oneFile "\x7b\x7bx\x7d\x7d" Sample.lessThan = .ok "<" ∧
      renderText Sample.oneFile "\x7b\x7b>p\x7d\x7d" Sample.lessThan = .ok "&lt;" := by
  refine ⟨?_, Sample.renderText_including⟩
  have parsed : Node.parse (verbatimTemplate "\x7b\x7bx\x7d\x7d") = .ok [.value ["x"] false] := by
    decide +kernel
  have rendered (inclusion : Inclusion) :
      Node.renderAll inclusion "" [Sample.lessThan] [.value ["x"] false] {} = .ok ⟨"<", false⟩ :=
    rfl
  rw [renderText_eq_renderAsWritten, renderAsWritten_of_no_inclusions parsed rfl, Template.render,
    rendered]
  rfl

end Stencil
