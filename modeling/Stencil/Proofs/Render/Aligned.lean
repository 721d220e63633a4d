import Mathlib.Data.List.Basic
import Stencil.Proofs.Mustache.Alignment
import Stencil.Proofs.Mustache.Unaltered
import Stencil.Proofs.Render.AsWritten

/-!
# What ampersands change

Putting ampersands into a template is meant to change nothing but what is escaped. This is so if
they all do no harm where they are put: what comes of plain data is then what comes of the template
as it is written, or the same failure.

## Main results

* `Mustache.Template.parse_verbatim`: how a template is read with and without ampersands
* `renderText_of_aligned`: what comes of them
-/

namespace Stencil

open Mustache

namespace Mustache

variable {text : String}

/-- With ampersands that do no harm, a text is read as the same nodes, but for what is escaped. -/
theorem Node.parse_verbatim (isAligned : aligned false .start text.toList = true) :
    Corresponds (fun nodes' nodes => Node.unescapedAll nodes' = Node.unescapedAll nodes)
      (Node.parse (verbatimTemplate text)) (Node.parse text) := by
  have agree := Piece.Cursor.scan_verbatim (.same false .start) isAligned
  have alike {x y : List Piece × Option TemplateFault} (agree : Piece.Cursor.Agree x y) :
      (Nesting.ofPieces x.1 x.2).map Node.unescapedAll =
        (Nesting.ofPieces y.1 y.2).map Node.unescapedAll := by
    rw [← Nesting.ofPieces_mapEscaped, ← Nesting.ofPieces_mapEscaped, agree.1, agree.2]
  rw [Node.parse, Node.parse, verbatimTemplate, String.toList_ofList]
  exact .of_map_eq (alike agree)

namespace Template

theorem mapEscaped_eq_of_unescapedAll {t t' : Template}
    (nodes : Node.unescapedAll t.nodes = Node.unescapedAll t'.nodes)
    (partials : t.partials = t'.partials) :
    t.mapEscaped (fun _ => false) id = t'.mapEscaped (fun _ => false) id := by
  rw [mapEscaped, mapEscaped, partials]
  exact congrArg (Template.mk · _) nodes

/-- With ampersands that do no harm, a template is read as the same template, but for what is
escaped, or it is malformed in the same way. -/
theorem parse_verbatim (read : FileReader) (isAligned : aligned false .start text.toList = true) :
    Corresponds (fun t' t => t'.mapEscaped (fun _ => false) id = t.mapEscaped (fun _ => false) id)
      (parse read (verbatimTemplate text)) (parse read text) := by
  refine (Node.parse_verbatim isAligned).bind fun nodes' nodes same => ?_
  have inclusions : Node.allInclusions nodes' = Node.allInclusions nodes := calc
    _ = Node.allInclusions (Node.unescapedAll nodes') := (Node.allInclusions_mapEscapedAll ..).symm
    _ = Node.allInclusions (Node.unescapedAll nodes) := congrArg _ same
    _ = Node.allInclusions nodes := Node.allInclusions_mapEscapedAll ..
  rw [inclusions]
  refine (Corresponds.refl (R := Eq) (fun _ => rfl) _).bind fun partials' partials isSame => .ok ?_
  exact mapEscaped_eq_of_unescapedAll same isSame

/-- What is written for a value of plain data is plain. -/
theorem isPlain_textOf {data : Json} (plain : ∀ s, data.Contains (.string s) → IsPlain s)
    {found : Option Json} (inData : ∀ value, found = some value → data.Contains value) :
    IsPlain (textOf found) := by
  cases found with
  | none => exact IsPlain.empty
  | some value =>
    cases value with
    | null | bool truth | array items | object members => exact IsPlain.empty
    | number n => exact IsPlain.number_text _ n
    | string s => exact plain s (inData _ rfl)

/-- Whether values are escaped does not matter if the data is plain. -/
theorem render_of_plain {read : FileReader} {t : Template} (parsed : parse read text = .ok t)
    {data : Json} (plain : ∀ s, data.Contains (.string s) → IsPlain s) :
    (t.mapEscaped (fun _ => false) id).render data = t.render data := by
  have rendered : Corresponds
      (fun plain text => plain = text ↔ t.Unaltered (fun _ => false) id data)
      ((t.mapEscaped (fun _ => false) id).render data) (t.render data) :=
    render_mapEscaped (fun _ never => absurd never Bool.false_ne_true) (fun _ => id) parsed data
  have unaltered : t.Unaltered (fun _ => false) id data := by
    intro stack node reaches
    cases node with
    | text s | block path inverted body => exact trivial
    | value path escaped =>
      exact .inr (isPlain_textOf plain fun value found => reaches.contains_of_find? found)
    | inclusion name indent =>
      intro stack' node' _
      cases node' with
      | text s | block path inverted body | inclusion name indent => exact trivial
      | value path escaped => exact .inl rfl
  rcases rendered.error_or_ok with
    ⟨fault, failed, failed'⟩ | ⟨plain, text, isPlain, isText, related⟩
  · rw [failed, failed']
  · rw [isPlain, isText, related.mpr unaltered]

end Template

end Mustache

/-- **Putting ampersands in.** If all ampersands that are put into a template do no harm where they
are put, and no text in the data has special characters, then what comes of the template is what
comes of it as it is written: the same text, or the same failure. -/
theorem renderText_of_aligned (read : FileReader) (template : String) (data : Json)
    (isAligned : aligned false .start template.toList = true)
    (plain : ∀ s, data.Contains (.string s) → IsPlain s) :
    renderText read template data = renderAsWritten read template data := by
  rw [renderText_eq_renderAsWritten]
  rcases (Template.parse_verbatim read isAligned).error_or_ok with
    ⟨fault, failed', failed⟩ | ⟨t', t, parsed', parsed, same⟩
  · rw [renderAsWritten, renderAsWritten, failed', failed]
  · have rendered : t'.render data = t.render data := by
      rw [← Template.render_of_plain parsed' plain, same, Template.render_of_plain parsed plain]
    rw [renderAsWritten_of_parse parsed', renderAsWritten_of_parse parsed, rendered]

/-- An unfinished tag becomes text, so an ampersand in it does harm. -/
example : aligned false .start "\x7b\x7bx\x7d".toList = false := by decide +kernel

namespace Sample

/-- The template `{{x}}{{! {{y }}{{=<% %>=}}<% x %>{{&z}}`. -/
def mixed : String :=
  "\x7b\x7bx\x7d\x7d\x7b\x7b! \x7b\x7by \x7d\x7d\x7b\x7b=<% %>=\x7d\x7d<% x %>\x7b\x7b&z\x7d\x7d"

def oneText : Json := .object [("x", .string "v")]

/-- The template `{{=<% %>=}}{{x}}`. -/
def outside : String := "\x7b\x7b=<% %>=\x7d\x7d\x7b\x7bx\x7d\x7d"

end Sample

/-- With comments and other delimiters, a template may still come to the same. -/
theorem renderText_of_aligned_mixed :
    aligned false .start Sample.mixed.toList = true ∧
      (∀ s, Sample.oneText.Contains (.string s) → IsPlain s) ∧
      ∀ read, renderText read Sample.mixed Sample.oneText =
        renderAsWritten read Sample.mixed Sample.oneText := by
  have isAligned : aligned false .start Sample.mixed.toList = true := by decide +kernel
  have plain (s : String) (contains : Sample.oneText.Contains (.string s)) : IsPlain s := by
    cases contains with
    | member isMember inside =>
      obtain ⟨-, rfl⟩ := Prod.mk.inj (List.mem_singleton.mp isMember)
      cases inside with
      | refl => decide
  exact ⟨isAligned, plain, fun read => renderText_of_aligned read _ _ isAligned plain⟩

/-- With other delimiters in force, braces are text, and an ampersand that is put in after them is
written. -/
theorem renderText_outside :
    renderAsWritten (fun _ => .error .missing) Sample.outside (.object []) =
        .ok "\x7b\x7bx\x7d\x7d" ∧
      renderText (fun _ => .error .missing) Sample.outside (.object []) =
        .ok "\x7b\x7b&x\x7d\x7d" := by
  have parsed : Node.parse Sample.outside = .ok [.text "\x7b\x7bx\x7d\x7d"] := by decide +kernel
  have parsed' : Node.parse (verbatimTemplate Sample.outside) =
      .ok [.text "\x7b\x7b&x\x7d\x7d"] := by decide +kernel
  have rendered (inclusion : Inclusion) (s : String) :
      Node.renderAll inclusion "" [.object []] [.text s] {} = .ok (({} : Output).write s) := rfl
  constructor
  · rw [renderAsWritten_of_no_inclusions parsed rfl, Template.render, rendered]
    rfl
  · rw [renderText_eq_renderAsWritten, renderAsWritten_of_no_inclusions parsed' rfl,
      Template.render, rendered]
    rfl

end Stencil
