import Stencil.Files.Artifact
import Stencil.Markup.Load
import Stencil.Table.Load
import Stencil.Template.Expand

/-!
# Generating header and source

A document brings its own tables, and the first `gen` element of it is the template. What comes of
a document is the text for each of the two files and the problems met on the way; of several
documents, the texts and problems one after another, after the lines with which the files begin. A
document that cannot be loaded is reported, and the others are not touched by that.

## Main definitions

* `Generated`: the two texts and the problems
* `Template.run`: expands a template against tables
* `Generated.ofDocument`: what comes of a document
* `GenerateRequest`: the documents, and the files to be made of them
* `GenerateRequest.generated`: what comes of a request
-/

namespace Stencil

open Markup

/-- What comes of generating: a header, a source, and the problems met. -/
structure Generated where
  header : String := ""
  source : String := ""
  diagnostics : Diagnostics := []
deriving Repr, DecidableEq

namespace Generated

/-- Whether no error was met. -/
def success (g : Generated) : Bool := g.diagnostics.isSuccess

/-- One result after another. -/
def append (g h : Generated) : Generated :=
  ⟨g.header ++ h.header, g.source ++ h.source, g.diagnostics ++ h.diagnostics⟩

instance : Append Generated := ⟨append⟩

end Generated

/-- Expands the contents of a template against tables. -/
def Template.run (file : String) (store : Store) (template : Element) : Generated :=
  let (out, problems) := expand file store {} template.children {}
  ⟨out.header, out.source, problems⟩

/-- What comes of a document. -/
def Generated.ofDocument (file : String) (root : Element) : Generated :=
  let (store, problems) := Store.load file root
  match root.element? "gen" with
  | none => { diagnostics := problems ++ [Problem.noTemplate.reportAt file root.line] }
  | some template =>
    let generated := Template.run file store template
    { generated with diagnostics := problems ++ generated.diagnostics }

/-- A request to generate: the files to be written, the documents, and what to do about them. -/
structure GenerateRequest where
  source : String
  header : String
  inputs : List String
  /-- Whether the source begins by including the header. -/
  includeHeader : Bool := false
  /-- Whether the files are written even if errors were met. -/
  keepOnError : Bool := false
deriving Repr, DecidableEq

/-- What comes of the document in a file. -/
def Generated.ofFile (read : FileReader) (path : String) : Generated :=
  match Element.load read path with
  | .ok root => ofDocument path root
  | .error fault => { diagnostics := [(Problem.unloadable fault.message).report path none] }

namespace GenerateRequest

/-- The first lines of every header. -/
def headerStart : String := "#pragma once\n\n"

/-- The first lines of the source: the inclusion of the header, by the name of its file, if that is
asked for and there is such a name. -/
def sourceStart (request : GenerateRequest) : String :=
  if request.includeHeader then
    match (FilePath.ofText request.header).fileName? with
    | some name => s!"#include \"{name}\"\n\n"
    | none => ""
  else ""

/-- What comes of a request: what comes of its documents, one after the other, after the first
lines. -/
def generated (read : FileReader) (request : GenerateRequest) : Generated :=
  request.inputs.foldl (fun g path => g ++ Generated.ofFile read path)
    { header := headerStart, source := request.sourceStart }

/-- The files to be written: the header, then the source. -/
def artifacts (request : GenerateRequest) (g : Generated) : List Artifact :=
  [{ path := request.header, text := g.header }, { path := request.source, text := g.source }]

end GenerateRequest

end Stencil
