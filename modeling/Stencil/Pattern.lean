import Stencil.Diagnostic.Problem
import Stencil.Files.Artifact
import Stencil.Markup.Load

/-!
# Joining patterns

A document may hold named pieces of text, `pattern` elements below its root. Joining takes the
piece of one name out of each document. Every pattern is checked, whether it is the wanted one or
not, and only the first wanted one of a document is taken.

## Main definitions

* `Joined`: the joined text and the problems
* `Pattern.collect`: checks patterns and takes the first of a name
* `Joined.ofDocument`: what a document contributes
* `JoinRequest`: the documents and the file to be made of them
* `JoinRequest.joined`: what comes of a request
-/

namespace Stencil

open Markup

/-- Joined text and the problems met. -/
structure Joined where
  text : String := ""
  diagnostics : Diagnostics := []
deriving Repr, DecidableEq

namespace Joined

/-- Whether no error was met. -/
def success (j : Joined) : Bool := j.diagnostics.isSuccess

/-- One result after another. -/
def append (i j : Joined) : Joined := ⟨i.text ++ j.text, i.diagnostics ++ j.diagnostics⟩

instance : Append Joined := ⟨append⟩

/-- The same text with a problem before the others. -/
def report (problem : Diagnostic) (j : Joined) : Joined :=
  { j with diagnostics := problem :: j.diagnostics }

end Joined

namespace Pattern

/-- The line directive that attributes the text after it to a line of a file. -/
def lineDirective (file : String) (line : Nat) : String := s!"#line {line} \"{file}\"\n"

/-- A pattern's text as it is written: with the directive for its line, if directives are asked
for, and followed by an empty line. -/
def block (file : String) (lineDirectives : Bool) (line : Nat) (text : String) : String :=
  (if lineDirectives then lineDirective file line else "") ++ text ++ "\n\n"

/-- Checks patterns in order and takes the first one named `wanted`; `found` is the line of the one
that was taken before these. -/
def collect (file wanted : String) (lineDirectives : Bool) (found : Option Nat) :
    List Element → Joined
  | [] => {}
  | e :: es =>
    match e.attribute? "name" with
    | none =>
      (collect file wanted lineDirectives found es).report
        ((Problem.attributeMissing "name" "pattern").reportAt file e.line)
    | some name =>
      match e.text? with
      | none =>
        (collect file wanted lineDirectives found es).report
          ((Problem.textMissing name).reportAt file e.line)
      | some text =>
        if name = wanted then
          match found with
          | some previous =>
            (collect file wanted lineDirectives found es).report
              ((Problem.patternRepeated name previous).reportAt file e.line)
          | none =>
            let others := collect file wanted lineDirectives (some e.line) es
            { others with text := block file lineDirectives e.line text ++ others.text }
        else collect file wanted lineDirectives found es

end Pattern

/-- What a document contributes: the text of its pattern named `wanted`. -/
def Joined.ofDocument (file : String) (root : Element) (wanted : String)
    (lineDirectives : Bool) : Joined :=
  Pattern.collect file wanted lineDirectives none (root.elementsNamed "pattern")

/-- A request to join: the file to be written, the name of the patterns, and the documents. -/
structure JoinRequest where
  output : String
  pattern : String
  /-- Whether every text is attributed to its line. -/
  lineDirectives : Bool
  inputs : List String
deriving Repr, DecidableEq

namespace JoinRequest

/-- What the document in a file contributes. -/
def joinedFrom (read : FileReader) (request : JoinRequest) (path : String) : Joined :=
  match Element.load read path with
  | .ok root => .ofDocument path root request.pattern request.lineDirectives
  | .error fault => { diagnostics := [(Problem.unloadable fault.message).report path none] }

/-- What comes of a request: what its documents contribute, one after the other. -/
def joined (read : FileReader) (request : JoinRequest) : Joined :=
  request.inputs.foldl (fun j path => j ++ request.joinedFrom read path) {}

/-- The files to be written. -/
def artifacts (request : JoinRequest) (j : Joined) : List Artifact :=
  [{ path := request.output, text := j.text }]

end JoinRequest

end Stencil
