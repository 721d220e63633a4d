import Stencil.Proofs.Generate.Generated
import Stencil.Proofs.Pattern

/-!
# What every input contributes

Generating and joining take their inputs one after the other, and nothing of a document is kept for
the next. An input contributes the same wherever it stands among the others and however often, and
what comes of a request is what its inputs contribute in order. An input that cannot be loaded
contributes a report and nothing else.

## Main definitions

* `GenerateRequest.start`: the lines with which the two files begin
* `Generated.ofFiles`: what the documents in files contribute

## Main results

* `GenerateRequest.generated_withInputs`: the first lines, and after them what the inputs contribute
* `Generated.ofFiles_append`, `JoinRequest.joined_append`: two lists contribute what each of them
  does
* `inputs_independent`: inputs are taken independently of each other
-/

namespace Stencil

open Markup

variable {read : FileReader} {path : String}

/-- What is put after something one piece after the other is put after it as a whole. -/
theorem foldl_eq_op_foldl {α β : Type} {op : β → β → β} [Std.Associative op] {empty : β}
    (neutral : ∀ b, op b empty = b) (piece : α → β) (as : List α) (b : β) :
    as.foldl (fun b a => op b (piece a)) b =
      op b (as.foldl (fun b a => op b (piece a)) empty) := by
  -- `List.foldl_assoc` is about a list of pieces, and the loop makes each piece when it needs it.
  have whole : (as.map piece).foldl op (op b empty) = op b ((as.map piece).foldl op empty) :=
    List.foldl_assoc
  rwa [neutral, List.foldl_map, List.foldl_map] at whole

/-! ### Generating -/

instance : Std.Associative (fun g h : Generated => g ++ h) := ⟨Generated.append_assoc⟩

/-- What the documents in files contribute, one after the other. -/
def Generated.ofFiles (read : FileReader) (paths : List String) : Generated :=
  paths.foldl (fun g path => g ++ ofFile read path) {}

theorem Generated.ofFiles_append (read : FileReader) (as bs : List String) :
    ofFiles read (as ++ bs) = ofFiles read as ++ ofFiles read bs := by
  rw [ofFiles, List.foldl_append]
  exact foldl_eq_op_foldl append_empty (ofFile read) bs (ofFiles read as)

@[simp] theorem Generated.ofFiles_singleton : ofFiles read [path] = ofFile read path :=
  empty_append (ofFile read path)

namespace GenerateRequest

/-- The same request for other documents. -/
def withInputs (request : GenerateRequest) (paths : List String) : GenerateRequest :=
  { request with inputs := paths }

/-- The lines with which the header and the source begin. -/
def start (request : GenerateRequest) : Generated :=
  { header := headerStart, source := request.sourceStart }

theorem generated_withInputs (read : FileReader) (request : GenerateRequest)
    (paths : List String) :
    (request.withInputs paths).generated read = request.start ++ Generated.ofFiles read paths :=
  foldl_eq_op_foldl Generated.append_empty (Generated.ofFile read) paths request.start

end GenerateRequest

/-! ### Joining -/

instance : Std.Associative (fun i j : Joined => i ++ j) := ⟨Joined.append_assoc⟩

namespace JoinRequest

/-- The same request for other documents. -/
def withInputs (request : JoinRequest) (paths : List String) : JoinRequest :=
  { request with inputs := paths }

theorem joined_append (read : FileReader) (request : JoinRequest) (as bs : List String) :
    (request.withInputs (as ++ bs)).joined read =
      (request.withInputs as).joined read ++ (request.withInputs bs).joined read := by
  rw [joined, withInputs, List.foldl_append]
  exact foldl_eq_op_foldl Joined.append_empty (request.joinedFrom read) bs _

theorem joined_singleton (read : FileReader) (request : JoinRequest) (path : String) :
    (request.withInputs [path]).joined read = request.joinedFrom read path :=
  Joined.empty_append (request.joinedFrom read path)

end JoinRequest

/-! ### Inputs that can be loaded, and others -/

/-- The report that an input cannot be loaded: an error on no known line of it. -/
def Diagnostic.loadFailure (path : String) (fault : LoadFault) : Diagnostic where
  severity := .error
  kind := .loadFailure
  file := path
  line := none
  message := "Failed to load file: " ++ fault.message

/-- **Inputs are taken independently of each other.** The header and the source of two lists of
inputs are the first lines, then what the inputs of one list contribute, and then what those of the
other contribute, and the reports are put together in the same way. It is the same with what is
joined. An input that can be loaded contributes what comes of its document, and any other nothing
but the report of that. -/
theorem inputs_independent (read : FileReader) :
    (∀ (request : GenerateRequest) (paths : List String),
      (request.withInputs paths).generated read = request.start ++ Generated.ofFiles read paths) ∧
    (∀ (request : GenerateRequest) (as bs : List String),
      (request.withInputs (as ++ bs)).generated read =
        request.start ++ (Generated.ofFiles read as ++ Generated.ofFiles read bs)) ∧
    (∀ (request : JoinRequest) (as bs : List String),
      (request.withInputs (as ++ bs)).joined read =
        (request.withInputs as).joined read ++ (request.withInputs bs).joined read) ∧
    ∀ path,
      (∀ root, Element.load read path = .ok root →
        Generated.ofFiles read [path] = .ofDocument path root ∧
        ∀ request : JoinRequest, (request.withInputs [path]).joined read =
          .ofDocument path root request.pattern request.lineDirectives) ∧
      ∀ fault, Element.load read path = .error fault →
        Generated.ofFiles read [path] = { diagnostics := [.loadFailure path fault] } ∧
        ∀ request : JoinRequest, (request.withInputs [path]).joined read =
          { diagnostics := [.loadFailure path fault] } := by
  refine ⟨GenerateRequest.generated_withInputs read, fun request as bs => ?_,
    JoinRequest.joined_append read, fun path => ⟨fun root loaded => ?_, fun fault unloaded => ?_⟩⟩
  · rw [GenerateRequest.generated_withInputs, Generated.ofFiles_append]
  · refine ⟨?_, fun request => ?_⟩
    · rw [Generated.ofFiles_singleton, Generated.ofFile, loaded]
    · rw [JoinRequest.joined_singleton, JoinRequest.joinedFrom, loaded]
  · refine ⟨?_, fun request => ?_⟩
    · rw [Generated.ofFiles_singleton, Generated.ofFile, unloaded]
      rfl
    · rw [JoinRequest.joined_singleton, JoinRequest.joinedFrom, unloaded]
      rfl

namespace Sample

/-- Files of which one holds a document and another one holds none. -/
def shelf : FileReader := fun path =>
  if path = "d.xml" then .ok "<r><tables/><gen>x</gen><pattern name=\"p\">y</pattern></r>"
  else if path = "bad.xml" then .ok "<r>"
  else .error .missing

/-- The document. -/
def shelved : Element :=
  ⟨⟨"r", [], 1⟩,
    [.element ⟨"tables", [], 1⟩ [], .element ⟨"gen", [], 1⟩ [.text "x" 1],
     .element ⟨"pattern", [("name", "p")], 1⟩ [.text "y" 1]]⟩

/-- A request to generate that names no inputs yet. -/
def plain : GenerateRequest := { source := "out.cc", header := "out.h", inputs := [] }

/-- A request to join that names no inputs yet. -/
def joining : JoinRequest :=
  { output := "out", pattern := "p", lineDirectives := true, inputs := [] }

end Sample

theorem inputs_independent_shelf :
    Element.load Sample.shelf "d.xml" = .ok Sample.shelved ∧
      Element.load Sample.shelf "bad.xml" =
        .error (.malformed "bad.xml" (.unclosed "r" 1)) ∧
      (Sample.plain.withInputs (["d.xml", "bad.xml"] ++ ["d.xml"])).generated Sample.shelf =
        ⟨"#pragma once\n\nxx", "xx",
          [.loadFailure "bad.xml" (.malformed "bad.xml" (.unclosed "r" 1))]⟩ ∧
      (Sample.joining.withInputs (["d.xml"] ++ ["d.xml"])).joined Sample.shelf =
        ⟨"#line 1 \"d.xml\"\ny\n\n#line 1 \"d.xml\"\ny\n\n", []⟩ := by
  obtain ⟨-, generated, joined, each⟩ := inputs_independent Sample.shelf
  have loaded : Element.load Sample.shelf "d.xml" = .ok Sample.shelved := by decide +kernel
  have malformed : Element.load Sample.shelf "bad.xml" =
      .error (.malformed "bad.xml" (.unclosed "r" 1)) := by decide +kernel
  obtain ⟨ofGood, joinedGood⟩ := (each "d.xml").1 _ loaded
  obtain ⟨ofBad, -⟩ := (each "bad.xml").2 _ malformed
  refine ⟨loaded, malformed, ?_, ?_⟩
  · have first : Generated.ofFiles Sample.shelf ["d.xml", "bad.xml"] =
        Generated.ofFiles Sample.shelf ["d.xml"] ++ Generated.ofFiles Sample.shelf ["bad.xml"] :=
      Generated.ofFiles_append Sample.shelf ["d.xml"] ["bad.xml"]
    rw [generated, first, ofGood, ofBad]
    decide +kernel
  · rw [joined, joinedGood]
    rfl

end Stencil
