import Stencil.Proofs.Command.Inputs
import Stencil.Proofs.Command.Plan
import Stencil.Proofs.Render.Data

/-!
# Commands that make one file

Joining and rendering make one file each, and touch no other. All that may go wrong in reading,
joining and rendering goes wrong before the file is opened, and so does a path that leads to no
file: such a run leaves everything as it was. Only if the file is opened and there is not room for
the text, the run fails although it has changed the file, which is left with a beginning of the
text. What is reported of data are warnings, so rendering never ends with the status for errors in
documents.

## Main definitions

* `MakesOnly`: what a run leaves behind that makes one file

## Main results

* `Plan.makesOnly_perform`: plans for one file
* `Invocation.makesOnly_run`: joining and rendering
-/

namespace Stencil

open Markup

/-- What a run leaves behind that makes the file at a path. If it succeeds, the file holds a text
that is as it should be. If it does not, everything is as it was, unless it was the text that broke
off: then the status is 2, and the file holds a beginning of the text. All other files hold what
they held in any case. -/
structure MakesOnly (t : FileTree) (path : String) (IsMade : String → Prop)
    (result : FileTree × Ending) : Prop where
  nothing : result.2.status.code ≠ 0 →
    (result.2.status.code = 2 → ∀ text, IsMade text → ¬ t.BreaksOff path text) → result.1 = t
  beginning : result.2.status.code = 2 → ∀ text, IsMade text → t.BreaksOff path text →
    ∃ content, result.1.contents path = .ok content ∧ content.IsBeginningOf text
  all : result.2.status.code = 0 →
    ∃ text, IsMade text ∧ result.1.contents path = .ok (.text text)
  others : ∀ l, t.target path ≠ .ok l → result.1.file? l = t.file? l

variable {t : FileTree} {format : ReportFormat}

namespace MakesOnly

variable {path text : String} {IsMade : String → Prop} {ending : Ending}

/-- A run that fails before it has a text to be written leaves everything as it was. -/
theorem untouched (failed : ending.status.code ≠ 0)
    (noText : ending.status.code = 2 → ∀ text, ¬ IsMade text) :
    MakesOnly t path IsMade (t, ending) where
  nothing _ _ := rfl
  beginning isFailure text isMade := absurd isMade (noText isFailure text)
  all succeeded := absurd succeeded failed
  others _ _ := rfl

/-- A run that writes its text, and succeeds if all of it can be written and fails if not. -/
theorem written {result : FileTree × Ending} (isMade : ∀ text', IsMade text' ↔ text' = text)
    (left : result.1 = (t.write path text).1)
    (succeeds : t.Takes path text → result.2.status = .success)
    (fails : ¬ t.Takes path text → result.2.status = .failure) :
    MakesOnly t path IsMade result where
  nothing failed whole := by
    have notTaken : ¬ t.Takes path text := fun takes => failed (by rw [succeeds takes]; rfl)
    have isFailure : result.2.status.code = 2 := by rw [fails notTaken]; rfl
    rw [left]
    -- not all was written though nothing broke off, so there was no file to be opened
    refine FileTree.fst_write_of_forall_target_ne ?_
    exact (FileTree.breaksOff_or_of_not_takes notTaken).resolve_left
      (whole isFailure text ((isMade text).mpr rfl))
  beginning _ text' isMade' breaksOff := by
    obtain rfl := (isMade text').mp isMade'
    rw [left]
    exact FileTree.contents_write_of_breaksOff breaksOff
  all succeeded := by
    have takes : t.Takes path text := by
      by_contra notTaken
      simp [fails notTaken, ExitStatus.code] at succeeded
    obtain ⟨l, leads, -⟩ := FileTree.takes_iff.mp takes
    refine ⟨text, (isMade text).mpr rfl, ?_⟩
    rw [left, takes.write_eq leads]
    exact FileTree.contents_put leads
  others l elsewhere := by
    rw [left]
    exact FileTree.file?_write elsewhere

end MakesOnly

/-- A plan for one file makes it and touches no other, and does not end with status 1. -/
theorem Plan.makesOnly_perform {p : Plan} {a : Artifact} {IsMade : String → Prop}
    (isOnly : p.artifacts = [a]) (isMade : ∀ text, IsMade text ↔ text = a.text)
    (orderly : p.status = .success) :
    MakesOnly t a.path IsMade (p.perform t) ∧ (p.perform t).2.status.code ≠ 1 := by
  have succeeds (takes : t.Takes a.path a.text) : (p.perform t).2.status = .success := by
    rw [perform_of_takes (by simpa [isOnly] using takes), orderly]
  have fails (notTaken : ¬ t.Takes a.path a.text) : (p.perform t).2.status = .failure := by
    obtain ⟨message, ended⟩ :=
      exists_perform_of_not_takes (t := t) (p := p) (by simpa [isOnly] using notTaken)
    rw [ended]
  refine ⟨.written isMade (fst_perform_of_artifacts_eq_singleton isOnly) succeeds fails, ?_⟩
  by_cases takes : t.Takes a.path a.text
  · simp [succeeds takes, ExitStatus.code]
  · simp [fails takes, ExitStatus.code]

/-! ### Joining -/

namespace JoinRequest

variable {request : JoinRequest}

theorem run_of_flawed (flawed : (request.joined t.read).success = false) :
    Invocation.run t ⟨format, .join request⟩ =
      (t, ⟨(request.joined t.read).diagnostics.report format, .problems⟩) := by
  have isStatus : (request.joined t.read).diagnostics.status = .problems :=
    Diagnostics.status_eq_problems_iff.mpr flawed
  simp [Invocation.run, Invocation.plan, Command.planJoin, flawed, isStatus, Plan.perform_eq,
    Plan.ending]

theorem makesOnly_run_of_success (format : ReportFormat)
    (success : (request.joined t.read).success = true) :
    MakesOnly t request.output (· = (request.joined t.read).text)
        (Invocation.run t ⟨format, .join request⟩) ∧
      (Invocation.run t ⟨format, .join request⟩).2.status.code ≠ 1 := by
  refine Plan.makesOnly_perform
    (a := { path := request.output, text := (request.joined t.read).text }) ?_ (fun _ => Iff.rfl) ?_
  · simp [Invocation.plan, Command.planJoin, success, artifacts]
  · exact Diagnostics.status_eq_success_iff.mpr success

end JoinRequest

/-! ### Rendering -/

namespace RenderRequest

variable {request : RenderRequest} {read : FileReader} {r : Rendered}

/-- What is reported of data holds no error. -/
theorem isSuccess_of_rendered (isRendered : request.rendered read = .ok r) :
    r.diagnostics.isSuccess = true := by
  obtain ⟨template, -, isRendered⟩ := bind_eq_ok_iff.mp isRendered
  obtain ⟨text, -, isRendered⟩ := bind_eq_ok_iff.mp isRendered
  obtain ⟨value, -, isRendered⟩ := bind_eq_ok_iff.mp isRendered
  unfold Rendered.ofData at isRendered
  split at isRendered
  · cases isRendered
  · rename_i data diagnostics isData
    obtain ⟨filled, -, isRendered⟩ := bind_eq_ok_iff.mp isRendered
    cases isRendered
    exact Data.isSuccess_of_ofJson isData

theorem run_makesOnly (t : FileTree) (format : ReportFormat) (request : RenderRequest) :
    MakesOnly t request.output (fun text => ∃ r, request.rendered t.read = .ok r ∧ text = r.text)
        (Invocation.run t ⟨format, .render request⟩) ∧
      (Invocation.run t ⟨format, .render request⟩).2.status.code ≠ 1 := by
  cases isRendered : request.rendered t.read with
  | error fault =>
    have planned : Invocation.plan t.read ⟨format, .render request⟩ =
        ⟨failureLine fault.message, [], if fault.breaksOff then .brokenOff else .failure⟩ := by
      simp [Invocation.plan, Command.planRender, isRendered]
    unfold Invocation.run
    rw [planned]
    cases fault.breaksOff <;> exact ⟨.untouched nofun (by simp), nofun⟩
  | ok r =>
    refine Plan.makesOnly_perform
      (a := ⟨request.output, r.text, "Failed to open file for writing: "⟩) ?_ (by simp) ?_
    · simp [Invocation.plan, Command.planRender, isRendered, artifacts]
    · simp [Invocation.plan, Command.planRender, isRendered, Diagnostics.status_eq_success_iff,
        isSuccess_of_rendered isRendered]

end RenderRequest

namespace Invocation

namespace Sample

/-- A directory with a document, data that is no object, and a text template. -/
def folder : FileTree where
  files := [(["d.xml"], .text "<r><pattern name=\"p\">x</pattern></r>"), (["d.json"], .text "[]"),
    (["page"], .text "y")]

/-- The same directory on a disk that has no room left but for one byte in the document's place. -/
def crampedFolder : FileTree :=
  { folder with bounds := [(["d.xml"], ⟨1, .other "No space left on device (os error 28)"⟩)] }

/-- A request to join the document into itself. -/
def ontoInput : JoinRequest :=
  { output := "d.xml", pattern := "p", lineDirectives := false, inputs := ["d.xml"] }

/-- A request to fill the text template from what is no object. -/
def objectless : RenderRequest := { template := "page", document := "d.json", output := "page" }

end Sample

/-- **Commands that make one file.** Joining and rendering make the file at the output path and
touch no other. What the file holds was made of what files held before. If they fail they leave
everything as it was, unless the file was opened and did not take all of the text. Joining ends with
status 1 exactly if some document cannot be loaded or an error is met in it, and rendering never
does. -/
theorem makesOnly_run (t : FileTree) (format : ReportFormat) :
    (∀ request : JoinRequest,
      MakesOnly t request.output (· = (request.joined t.read).text)
        (run t ⟨format, .join request⟩) ∧
      ((run t ⟨format, .join request⟩).2.status.code = 1 ↔
        ∃ path ∈ request.inputs, (∃ fault, Element.load t.read path = .error fault) ∨
          ∃ root, Element.load t.read path = .ok root ∧
            ¬ (Joined.ofDocument path root request.pattern request.lineDirectives).success)) ∧
    ∀ request : RenderRequest,
      MakesOnly t request.output
        (fun text => ∃ r, request.rendered t.read = .ok r ∧ text = r.text)
        (run t ⟨format, .render request⟩) ∧
      (run t ⟨format, .render request⟩).2.status.code ≠ 1 := by
  refine ⟨fun request => ?_, RenderRequest.run_makesOnly t format⟩
  rw [← not_allPass_iff, ← JoinRequest.success_joined_iff]
  cases success : (request.joined t.read).success with
  | false =>
    rw [JoinRequest.run_of_flawed success]
    exact ⟨.untouched nofun nofun, by simp [ExitStatus.code]⟩
  | true =>
    obtain ⟨makes, orderly⟩ := JoinRequest.makesOnly_run_of_success format success
    exact ⟨makes, by simp [orderly]⟩

/-- A document is replaced by what was joined of it, or lost where there is no room for that. A text
template that cannot be filled is left as it was. -/
theorem makesOnly_run_folder :
    (run Sample.folder ⟨.terminal, .join Sample.ontoInput⟩).1.contents "d.xml" =
        .ok (.text "x\n\n") ∧
      (run Sample.folder ⟨.terminal, .render Sample.objectless⟩).2.status.code = 2 ∧
      (run Sample.folder ⟨.terminal, .render Sample.objectless⟩).1 = Sample.folder ∧
      (run Sample.crampedFolder ⟨.terminal, .join Sample.ontoInput⟩).2.status.code = 2 ∧
      ∃ content, (run Sample.crampedFolder ⟨.terminal, .join Sample.ontoInput⟩).1.contents "d.xml" =
        .ok content ∧ content.IsBeginningOf "x\n\n" := by
  obtain ⟨ofJoin, ofRender⟩ := makesOnly_run Sample.folder .terminal
  have succeeds : (run Sample.folder ⟨.terminal, .join Sample.ontoInput⟩).2.status.code = 0 := by
    decide +kernel
  have isJoined : (Sample.ontoInput.joined Sample.folder.read).text = "x\n\n" := by decide +kernel
  have fails : (run Sample.folder ⟨.terminal, .render Sample.objectless⟩).2.status.code = 2 := by
    decide +kernel
  have noText : Sample.objectless.rendered Sample.folder.read = .error .notAnObject := by
    decide +kernel
  have failsCramped :
      (run Sample.crampedFolder ⟨.terminal, .join Sample.ontoInput⟩).2.status.code = 2 := by
    decide +kernel
  have isJoinedCramped : "x\n\n" = (Sample.ontoInput.joined Sample.crampedFolder.read).text := by
    decide +kernel
  have breaksOff : Sample.crampedFolder.BreaksOff "d.xml" "x\n\n" :=
    ⟨⟨["d.xml"], by decide +kernel⟩, by rw [FileTree.Takes]; decide +kernel⟩
  obtain ⟨text, rfl, isWritten⟩ := (ofJoin Sample.ontoInput).1.all succeeds
  rw [isJoined] at isWritten
  obtain ⟨ofJoinCramped, -⟩ := makesOnly_run Sample.crampedFolder .terminal
  refine ⟨isWritten, fails, (ofRender Sample.objectless).1.nothing (by simp [fails]) ?_,
    failsCramped,
    (ofJoinCramped Sample.ontoInput).1.beginning failsCramped _ isJoinedCramped breaksOff⟩
  rintro - text ⟨r, isRendered, -⟩
  rw [noText] at isRendered
  cases isRendered

/-- A run that fails may have changed the file at the output path. -/
theorem ontoInput_loses_document :
    (run Sample.crampedFolder ⟨.terminal, .join Sample.ontoInput⟩).2.status.code = 2 ∧
      Sample.crampedFolder.file? ["d.xml"] =
        some (.text "<r><pattern name=\"p\">x</pattern></r>") ∧
      (run Sample.crampedFolder ⟨.terminal, .join Sample.ontoInput⟩).1.file? ["d.xml"] =
        some (.text "x") := by
  decide +kernel

end Invocation

end Stencil
