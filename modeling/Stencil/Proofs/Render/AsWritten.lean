import Stencil.Proofs.Mustache.Partials
import Stencil.Render

/-!
# Templates as they are written

Filling a template means putting ampersands into it and then filling the result as it is written.

## Main definitions

* `renderAsWritten`: fills a template without putting ampersands into it

## Main results

* `renderText_eq_renderAsWritten`: the two ways to fill a template
* `renderAsWritten_of_no_inclusions`: a template without partials is filled as its nodes
-/

namespace Stencil

open Mustache

/-- Fills a template from data as it is written. -/
def renderAsWritten (read : FileReader) (template : String) (data : Json) :
    Except RenderFailure String := do
  let template ← (Template.parse read template).mapError .malformedTemplate
  (template.render data).mapError .unwritable

variable {read : FileReader} {template : String}

theorem renderText_eq_renderAsWritten (read : FileReader) (template : String) (data : Json) :
    renderText read template data = renderAsWritten read (verbatimTemplate template) data := rfl

theorem renderAsWritten_of_parse {t : Template} (parsed : Template.parse read template = .ok t)
    (data : Json) :
    renderAsWritten read template data = (t.render data).mapError RenderFailure.unwritable := by
  rw [renderAsWritten, parsed]
  rfl

theorem renderAsWritten_of_no_inclusions {nodes : List Node}
    (parsed : Node.parse template = .ok nodes) (noInclusions : Node.allInclusions nodes = [])
    (data : Json) :
    renderAsWritten read template data =
      (Template.render ⟨nodes, []⟩ data).mapError RenderFailure.unwritable :=
  renderAsWritten_of_parse (Template.parse_of_no_inclusions read parsed noInclusions) data

end Stencil
