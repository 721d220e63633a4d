import Stencil.Files.Artifact
import Stencil.Json.Reader
import Stencil.Mustache.Render
import Stencil.Mustache.Verbatim
import Stencil.Render.Data

/-!
# Rendering a text template

A text template and a JSON document make one text. The template's values are written as they are;
what the document holds besides text is turned into text, or dropped with a warning.

## Main definitions

* `Rendered`: the text and the warnings
* `renderText`: fills a template from data
* `Rendered.ofData`: what comes of a template and a document's value
* `RenderRequest`: a template, a document and the file to be made of them
* `RenderRequest.rendered`: what comes of a request
-/

namespace Stencil

/-- Why rendering fails. -/
inductive RenderFailure where
  /-- A file cannot be read. -/
  | unreadable (path : String) (fault : FileFault)
  /-- The text of a document is not JSON. -/
  | malformedData (path : String) (text : String) (fault : Json.Fault)
  /-- The document is no object. -/
  | notAnObject
  /-- The template is malformed. -/
  | malformedTemplate (fault : Mustache.TemplateFault)
  /-- The template asks for something that cannot be written. -/
  | unwritable (fault : Mustache.RenderFault)
deriving Repr, DecidableEq

namespace RenderFailure

/-- The wording of a failure. -/
def message : RenderFailure → String
  | unreadable path fault => s!"Failed to open {path}: {fault.message}"
  | malformedData path text fault => s!"Failed to parse JSON in {path}: {fault.message text}"
  | notAnObject => "JSON document is not an object"
  | malformedTemplate fault => s!"Failed to parse mustache: {fault.message}"
  | unwritable fault => s!"Failed to render template: {fault.message}"

/-- Whether a failure makes the run break off, rather than end in an orderly way. -/
def breaksOff : RenderFailure → Bool
  | unwritable _ => true
  | _ => false

end RenderFailure

/-- Rendered text and the warnings about its data. -/
structure Rendered where
  text : String := ""
  diagnostics : Diagnostics := []
deriving Repr, DecidableEq

/-- A template whose values are written as they are. -/
def verbatimTemplate (template : String) : String :=
  String.ofList (Mustache.verbatim template.toList)

/-- Fills a template from data, writing values as they are. Partials are read from files, and
values in them are escaped. -/
def renderText (read : FileReader) (template : String) (data : Json) :
    Except RenderFailure String := do
  let template ←
    (Mustache.Template.parse read (verbatimTemplate template)).mapError .malformedTemplate
  (template.render data).mapError .unwritable

namespace Rendered

/-- What comes of a template and a document's value; `file` names the document in warnings. -/
def ofData (read : FileReader) (file template : String) (value : Json) :
    Except RenderFailure Rendered := do
  match Data.ofJson file value with
  | none => .error .notAnObject
  | some (data, diagnostics) =>
    let text ← renderText read template data
    return ⟨text, diagnostics⟩

/-- The text in a file. -/
def readText (read : FileReader) (path : String) : Except RenderFailure String :=
  (read path).mapError (.unreadable path)

end Rendered

/-- A request to render: a template, a document, and the file to be written. -/
structure RenderRequest where
  template : String
  document : String
  output : String
deriving Repr, DecidableEq

namespace RenderRequest

/-- What comes of a request. -/
def rendered (read : FileReader) (request : RenderRequest) : Except RenderFailure Rendered := do
  let template ← Rendered.readText read request.template
  let text ← Rendered.readText read request.document
  let value ← (Json.parse text).mapError (.malformedData request.document text)
  Rendered.ofData read request.document template value

/-- The files to be written. -/
def artifacts (request : RenderRequest) (r : Rendered) : List Artifact :=
  [⟨request.output, r.text, "Failed to open file for writing: "⟩]

end RenderRequest

end Stencil
