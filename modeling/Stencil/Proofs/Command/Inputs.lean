import Stencil.Command.Basic
import Stencil.Proofs.Generate.Generated

/-!
# Requests and their documents

What is reported of a request is what is reported of its documents, one after the other. So a
request meets no error exactly if each of its documents can be loaded and meets none itself,
whatever else is made of the documents.

## Main definitions

* `Markup.AllPass`: every path leads to a document that passes a check

## Main results

* `GenerateRequest.success_generated_iff`, `JoinRequest.success_joined_iff`: when a request meets no
  error
-/

namespace Stencil

open Markup

variable {read : FileReader} {path : String}

/-- Every path leads to a document that passes a check. -/
def Markup.AllPass (read : FileReader) (passes : String → Element → Bool) (paths : List String) :
    Prop :=
  ∀ path ∈ paths, ∃ root, Element.load read path = .ok root ∧ passes path root

/-- If not all documents pass, there is one that cannot be loaded or that fails the check. -/
theorem Markup.not_allPass_iff {passes : String → Element → Bool} {paths : List String} :
    ¬ AllPass read passes paths ↔
      ∃ path ∈ paths, (∃ fault, Element.load read path = .error fault) ∨
        ∃ root, Element.load read path = .ok root ∧ ¬ passes path root := by
  unfold AllPass
  push Not
  refine exists_congr fun path => and_congr_right fun _ => ?_
  cases Element.load read path with
  | error fault => simp
  | ok root => simp

/-- Problems of several origins hold no error exactly if those of each origin hold none. -/
theorem Diagnostics.isSuccess_flatMap_iff {α : Type} {l : List α} {f : α → Diagnostics} :
    isSuccess (l.flatMap f) = true ↔ ∀ a ∈ l, (f a).isSuccess = true := by
  simp only [isSuccess, List.all_flatMap, List.all_eq_true (l := l)]

/-- If every step reports something after what was reported before, all steps report one after the
other. -/
theorem Diagnostics.foldl_eq_append_flatMap {α β : Type} {step : β → α → β}
    {reported : β → Diagnostics} {added : α → Diagnostics}
    (each : ∀ b a, reported (step b a) = reported b ++ added a) (as : List α) (b : β) :
    reported (as.foldl step b) = reported b ++ as.flatMap added := by
  induction as generalizing b with
  | nil => exact (List.append_nil _).symm
  | cons a as ih => rw [List.foldl_cons, ih, each, List.flatMap_cons, List.append_assoc]

/-! ### Generating -/

theorem Generated.success_ofFile_iff :
    (ofFile read path).success = true ↔
      ∃ root, Element.load read path = .ok root ∧ (ofDocument path root).success := by
  unfold ofFile
  cases Element.load read path with
  | error fault => simp [success, Problem.severity]
  | ok root => simp

/-- What is reported of a request is what is reported of its documents. -/
theorem GenerateRequest.diagnostics_generated (read : FileReader) (request : GenerateRequest) :
    (request.generated read).diagnostics =
      request.inputs.flatMap fun path => (Generated.ofFile read path).diagnostics :=
  Diagnostics.foldl_eq_append_flatMap (fun _ _ => rfl) request.inputs _

/-- Generating meets no error exactly if every document can be loaded and meets none. -/
theorem GenerateRequest.success_generated_iff {request : GenerateRequest} :
    (request.generated read).success = true ↔
      AllPass read (fun path root => (Generated.ofDocument path root).success) request.inputs := by
  rw [Generated.success, diagnostics_generated, Diagnostics.isSuccess_flatMap_iff]
  exact forall₂_congr fun path _ => Generated.success_ofFile_iff

/-! ### Joining -/

theorem JoinRequest.success_joinedFrom_iff {request : JoinRequest} :
    (request.joinedFrom read path).success = true ↔
      ∃ root, Element.load read path = .ok root ∧
        (Joined.ofDocument path root request.pattern request.lineDirectives).success := by
  unfold joinedFrom
  cases Element.load read path with
  | error fault => simp [Joined.success, Problem.severity]
  | ok root => simp

/-- What is reported of a request is what is reported of its documents. -/
theorem JoinRequest.diagnostics_joined (read : FileReader) (request : JoinRequest) :
    (request.joined read).diagnostics =
      request.inputs.flatMap fun path => (request.joinedFrom read path).diagnostics :=
  Diagnostics.foldl_eq_append_flatMap (fun _ _ => rfl) request.inputs _

/-- Joining meets no error exactly if every document can be loaded and meets none. -/
theorem JoinRequest.success_joined_iff {request : JoinRequest} :
    (request.joined read).success = true ↔
      AllPass read
        (fun path root =>
          (Joined.ofDocument path root request.pattern request.lineDirectives).success)
        request.inputs := by
  rw [Joined.success, diagnostics_joined, Diagnostics.isSuccess_flatMap_iff]
  exact forall₂_congr fun path _ => success_joinedFrom_iff

end Stencil
