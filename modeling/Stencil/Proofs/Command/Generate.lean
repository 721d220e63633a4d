import Stencil.Proofs.Command.Arguments
import Stencil.Proofs.Command.Inputs
import Stencil.Proofs.Command.Plan

/-!
# What a run to generate leaves behind

A run to generate writes its two files one after the other: if no error was met, or in any case if
that was asked for. Nothing that was written is taken back. So a run that succeeds delivers both
files, where the source wins if both paths lead to the same file; and a run that fails changes
nothing, with two exceptions, if no error was met. Where there is not room for the header, a
beginning of it is left; and where the header is written and the source cannot be, the header stays,
and so does a beginning of the source if there was a file to write it to.

## Main definitions

* `GenerateRequest.CanDeliver`: both files can be written
* `GenerateRequest.CutsHeaderShort`: the header is not written to its end
* `GenerateRequest.StopsHalfway`: the header is written and the source cannot be
* `GenerateRequest.Outcome`: the ways in which a run to generate goes

## Main results

* `GenerateRequest.files_of_failed`: what a failed run leaves behind
* `GenerateRequest.contents_of_succeeded`: what a successful run leaves behind
* `GenerateRequest.code_run`: how a run ends, and what it means to write files in any case
-/

namespace Stencil

open Markup

namespace GenerateRequest

variable {t after : FileTree} {ending : Ending} {format : ReportFormat} {request : GenerateRequest}
  {g : Generated}

/-- A run to generate. -/
def run (t : FileTree) (format : ReportFormat) (request : GenerateRequest) : FileTree × Ending :=
  Invocation.run t ⟨format, .generate request⟩

/-- Both files can be written. -/
def CanDeliver (request : GenerateRequest) (t : FileTree) : Prop :=
  t.Takes request.header (request.generated t.read).header ∧
    t.Takes request.source (request.generated t.read).source

/-- No error is met, and writing the header breaks off. -/
def CutsHeaderShort (request : GenerateRequest) (t : FileTree) : Prop :=
  (request.generated t.read).success ∧ t.BreaksOff request.header (request.generated t.read).header

/-- No error is met and the header can be written, but the source cannot. -/
def StopsHalfway (request : GenerateRequest) (t : FileTree) : Prop :=
  (request.generated t.read).success ∧ t.Takes request.header (request.generated t.read).header ∧
    ¬ t.Takes request.source (request.generated t.read).source

/-- The same request, with the choice whether the files are written even if errors were met. -/
def keeping (request : GenerateRequest) (keep : Bool) : GenerateRequest :=
  { request with keepOnError := keep }

theorem forall_artifacts_iff :
    (∀ a ∈ request.artifacts (request.generated t.read), t.Takes a.path a.text) ↔
      request.CanDeliver t := by
  simp [artifacts, CanDeliver]

/-- The ways in which a run to generate goes, with the tree and the ending that come of it. -/
inductive Outcome (t : FileTree) (format : ReportFormat) (request : GenerateRequest) :
    FileTree × Ending → Prop where
  /-- Errors were met, and nothing is written. -/
  | withheld (flawed : (request.generated t.read).success = false)
      (unforced : request.keepOnError = false) :
    Outcome t format request (t, ⟨(request.generated t.read).diagnostics.report format, .problems⟩)
  /-- Both files are written. -/
  | delivered (asked : (request.generated t.read).success = true ∨ request.keepOnError = true)
      (canDeliver : request.CanDeliver t) :
    Outcome t format request
      ((t.deliver (request.artifacts (request.generated t.read))).1,
        ⟨(request.generated t.read).diagnostics.report format,
          (request.generated t.read).diagnostics.status⟩)
  /-- One of the files cannot be written. -/
  | blocked (asked : (request.generated t.read).success = true ∨ request.keepOnError = true)
      (cannotDeliver : ¬ request.CanDeliver t) (message : String) :
    Outcome t format request
      ((t.deliver (request.artifacts (request.generated t.read))).1,
        ⟨(request.generated t.read).diagnostics.report format ++ failureLine message, .failure⟩)

/-- Every run to generate goes in one of these ways. -/
theorem outcome_run (t : FileTree) (format : ReportFormat) (request : GenerateRequest) :
    Outcome t format request (run t format request) := by
  unfold run Invocation.run
  set p := Invocation.plan t.read ⟨format, .generate request⟩ with isPlan
  by_cases asked : (request.generated t.read).success = true ∨ request.keepOnError = true
  · have writes : p.artifacts = request.artifacts (request.generated t.read) := by
      simp [isPlan, Invocation.plan, Command.planGenerate, asked]
    by_cases canDeliver : request.CanDeliver t
    · rw [Plan.perform_of_takes (by rwa [writes, forall_artifacts_iff]), writes]
      exact .delivered asked canDeliver
    · obtain ⟨message, ended⟩ := Plan.exists_perform_of_not_takes (t := t) (p := p)
        (by rwa [writes, forall_artifacts_iff])
      rw [ended, writes]
      exact .blocked asked canDeliver message
  · -- nothing is planned, so no write can fail
    obtain ⟨flawed, unforced⟩ : (request.generated t.read).success = false ∧
        request.keepOnError = false := by simpa using asked
    have isStatus : (request.generated t.read).diagnostics.status = .problems :=
      Diagnostics.status_eq_problems_iff.mpr flawed
    have writes : p = ⟨(request.generated t.read).diagnostics.report format, [], .problems⟩ := by
      simp [isPlan, Invocation.plan, Command.planGenerate, flawed, unforced, isStatus]
    rw [writes]
    exact .withheld flawed unforced

namespace Outcome

variable {result : FileTree × Ending}

theorem code_eq_zero_iff (outcome : Outcome t format request result) :
    result.2.status.code = 0 ↔
      (request.generated t.read).success = true ∧ request.CanDeliver t := by
  rw [ExitStatus.code_eq_zero_iff]
  cases outcome with
  | withheld flawed unforced => simp [flawed]
  | delivered asked canDeliver =>
    rw [Diagnostics.status_eq_success_iff, and_iff_left canDeliver]
    rfl
  | blocked asked cannotDeliver message => simp [cannotDeliver]

theorem code_eq_one_iff (outcome : Outcome t format request result) :
    result.2.status.code = 1 ↔
      (request.generated t.read).success = false ∧
        (request.keepOnError = true → request.CanDeliver t) := by
  rw [ExitStatus.code_eq_one_iff]
  cases outcome with
  | withheld flawed unforced => simp [flawed, unforced]
  | delivered asked canDeliver =>
    rw [Diagnostics.status_eq_problems_iff, and_iff_left fun _ => canDeliver]
    rfl
  | blocked asked cannotDeliver message =>
    refine ⟨nofun, fun ⟨flawed, forced⟩ => absurd (forced ?_) cannotDeliver⟩
    simpa [flawed] using asked

theorem status_ne_brokenOff (outcome : Outcome t format request result) :
    result.2.status ≠ .brokenOff := by
  cases outcome with
  | withheld flawed unforced => nofun
  | delivered asked canDeliver => exact Diagnostics.status_ne_brokenOff _
  | blocked asked cannotDeliver message => nofun

/-- If files are written at all and all of them can be, they are. -/
theorem fst_eq_deliver (outcome : Outcome t format request result)
    (asked : (request.generated t.read).success = true ∨ request.keepOnError = true)
    (canDeliver : request.CanDeliver t) :
    result.1 = (t.deliver (request.artifacts (request.generated t.read))).1 := by
  cases outcome with
  | withheld flawed unforced => simp [flawed, unforced] at asked
  | delivered _ _ => rfl
  | blocked _ cannotDeliver message => exact absurd canDeliver cannotDeliver

theorem tells (outcome : Outcome t format request result) :
    result.2.Tells ((request.generated t.read).diagnostics.report format) := by
  cases outcome with
  | withheld flawed unforced => exact .completed nofun
  | delivered asked canDeliver => exact .completed (Diagnostics.status_ne_failure _)
  | blocked asked cannotDeliver message => exact .failed message

end Outcome

/-- If no error was met, files are written in any case. -/
theorem run_keeping_of_success (success : (request.generated t.read).success = true) (keep : Bool) :
    run t format (request.keeping keep) = run t format request := by
  have isGenerated : (request.keeping keep).generated t.read = request.generated t.read := rfl
  simp only [run, Invocation.run, Invocation.plan, Command.planGenerate, isGenerated, success,
    Bool.true_or]
  rfl

/-! ### Files -/

theorem deliver_header_eq_none (takes : t.Takes request.header g.header) :
    (t.deliver [{ path := request.header, text := g.header }]).2 = none :=
  FileTree.deliver_eq_none_iff.mpr (List.forall_mem_singleton.mpr takes)

/-- The header is found at its path once it is written, unless the source goes to the same file. -/
theorem contents_of_takes_header (takes : t.Takes request.header g.header)
    (apart : t.target request.header ≠ t.target request.source) :
    (t.deliver (request.artifacts g)).1.contents request.header = .ok (.text g.header) :=
  FileTree.contents_deliver (a := { path := request.header, text := g.header }) []
    [{ path := request.source, text := g.source }] (deliver_header_eq_none takes)
    (List.forall_mem_singleton.mpr apart.symm) rfl

/-- Once both files are written, the source is found at every path to its file. -/
theorem contents_of_takes (takesHeader : t.Takes request.header g.header)
    (takesSource : t.Takes request.source g.source) {path : String}
    (same : t.target path = t.target request.source) :
    (t.deliver (request.artifacts g)).1.contents path = .ok (.text g.source) := by
  have complete : (t.deliver (request.artifacts g)).2 = none := by
    rw [FileTree.deliver_eq_none_iff]
    simp [artifacts, takesHeader, takesSource]
  exact FileTree.contents_deliver (a := { path := request.source, text := g.source })
    [{ path := request.header, text := g.header }] [] complete (List.forall_mem_nil _) same

/-- If the header cannot be written, nothing else is. -/
theorem fst_deliver_of_not_takes_header (fails : ¬ t.Takes request.header g.header) :
    (t.deliver (request.artifacts g)).1 = (t.write request.header g.header).1 :=
  FileTree.fst_deliver_of_not_takes (a := { path := request.header, text := g.header }) []
    [{ path := request.source, text := g.source }] rfl fails

/-- If writing the source breaks off, a beginning of it is found at its path. -/
theorem contents_of_breaksOff_source (takes : t.Takes request.header g.header)
    (breaksOff : t.BreaksOff request.source g.source) :
    ∃ content, (t.deliver (request.artifacts g)).1.contents request.source = .ok content ∧
      content.IsBeginningOf g.source :=
  FileTree.contents_deliver_of_breaksOff (a := { path := request.source, text := g.source })
    [{ path := request.header, text := g.header }] [] (deliver_header_eq_none takes) breaksOff

/-- Files to which neither path leads are left alone. -/
theorem file?_of_target_ne {l : Location} (notHeader : t.target request.header ≠ .ok l)
    (notSource : t.target request.source ≠ .ok l) :
    (t.deliver (request.artifacts g)).1.file? l = t.file? l := by
  refine FileTree.file?_deliver ?_
  simp [artifacts, notHeader, notSource]

namespace Sample

/-- A directory with a document, another one that has an error, and an older header. -/
def folder : FileTree where
  files := [(["d.xml"], .text "<r><tables/><gen>x</gen></r>"),
    (["e.xml"], .text "<r><tables/><gen>x<y/></gen></r>"), (["out.h"], .text "old")]

/-- The same directory on a disk on which there is no room for a header. -/
def fullDisk : FileTree :=
  { folder with bounds := [(["out.h"], ⟨0, .other "No space left on device (os error 28)"⟩)] }

/-- A request to write the source to a directory that does not exist. -/
def misdirected : GenerateRequest :=
  { source := "missing/out.cc", header := "out.h", inputs := ["d.xml"] }

/-- A request to make two files of the document. -/
def sound : GenerateRequest := { source := "out.cc", header := "out.h", inputs := ["d.xml"] }

/-- A request whose paths are two spellings of one. -/
def coinciding : GenerateRequest := { source := "./out.h", header := "out.h", inputs := ["d.xml"] }

/-- A request to make two files of the document with an error. -/
def flawed : GenerateRequest := { source := "out.cc", header := "out.h", inputs := ["e.xml"] }

end Sample

/-- **What a failed run leaves behind.** If files are not to be written in spite of errors, a run
that fails changes nothing, unless it cuts the header short or stops halfway, and then it ends in
failure. Where the header is cut short, its file holds a beginning of the header. Where the run
stops halfway, the header stays in its file; if the source could be begun, its file holds a
beginning of the source, even if that is the same file. All other files hold what they held. -/
theorem files_of_failed (ran : run t format request = (after, ending))
    (unforced : request.keepOnError = false) (failed : ending.status.code ≠ 0) :
    (¬ request.CutsHeaderShort t → ¬ request.StopsHalfway t → after = t) ∧
    (request.CutsHeaderShort t → ending.status.code = 2 ∧
      (∃ content, after.contents request.header = .ok content ∧
        content.IsBeginningOf (request.generated t.read).header) ∧
      ∀ l, t.target request.header ≠ .ok l → after.file? l = t.file? l) ∧
    (request.StopsHalfway t → ending.status.code = 2 ∧
      (t.target request.header ≠ t.target request.source →
        after.contents request.header = .ok (.text (request.generated t.read).header)) ∧
      (t.BreaksOff request.source (request.generated t.read).source →
        ∃ content, after.contents request.source = .ok content ∧
          content.IsBeginningOf (request.generated t.read).source) ∧
      ∀ l, t.target request.header ≠ .ok l → t.target request.source ≠ .ok l →
        after.file? l = t.file? l) := by
  have outcome := outcome_run t format request
  rw [ran] at outcome
  cases outcome with
  | withheld flawed _ =>
    have notClean : ¬ (request.generated t.read).success = true := by simp [flawed]
    exact ⟨fun _ _ => rfl, fun cut => absurd cut.1 notClean,
      fun halfway => absurd halfway.1 notClean⟩
  | delivered asked canDeliver =>
    -- files were written without being asked for in any case, so no error was met
    have success : (request.generated t.read).success = true := by simpa [unforced] using asked
    have succeeded := Diagnostics.status_eq_success_iff.mpr success
    exact absurd (ExitStatus.code_eq_zero_iff.mpr succeeded) failed
  | blocked asked cannotDeliver message =>
    have success : (request.generated t.read).success = true := by simpa [unforced] using asked
    refine ⟨fun notCut notHalfway => ?_, fun cut => ⟨rfl, ?_⟩, fun halfway => ⟨rfl, ?_⟩⟩
    · -- one of the two files is the first that cannot be written, and it is the header
      have fails : ¬ t.Takes request.header (request.generated t.read).header := fun takes =>
        notHalfway ⟨success, takes, fun source => cannotDeliver ⟨takes, source⟩⟩
      have nowhere := (FileTree.breaksOff_or_of_not_takes fails).resolve_left
        fun breaksOff => notCut ⟨success, breaksOff⟩
      rw [fst_deliver_of_not_takes_header fails, FileTree.fst_write_of_forall_target_ne nowhere]
    · rw [fst_deliver_of_not_takes_header cut.2.2]
      exact ⟨FileTree.contents_write_of_breaksOff cut.2, fun _ => FileTree.file?_write⟩
    · exact ⟨contents_of_takes_header halfway.2.1, contents_of_breaksOff_source halfway.2.1,
        fun _ => file?_of_target_ne⟩

/-- The header is replaced although the run fails, and on a full disk it is lost. -/
theorem files_of_failed_misdirected :
    Sample.misdirected.keepOnError = false ∧
      (run Sample.folder .terminal Sample.misdirected).2.status.code ≠ 0 ∧
      (run Sample.folder .terminal Sample.misdirected).1.contents "out.h" =
        .ok (.text "#pragma once\n\nx") ∧
      (run Sample.fullDisk .terminal Sample.misdirected).2.status.code ≠ 0 ∧
      ∃ content, (run Sample.fullDisk .terminal Sample.misdirected).1.contents "out.h" =
        .ok content ∧ content.IsBeginningOf "#pragma once\n\nx" := by
  have halfway : Sample.misdirected.StopsHalfway Sample.folder := by
    rw [StopsHalfway, FileTree.Takes, FileTree.Takes]
    decide +kernel
  have fails : (run Sample.folder .terminal Sample.misdirected).2.status.code ≠ 0 := by
    decide +kernel
  obtain ⟨-, isHeader, -⟩ := (files_of_failed rfl rfl fails).2.2 halfway
  have generated : (Sample.misdirected.generated Sample.folder.read).header =
      "#pragma once\n\nx" := by decide +kernel
  rw [generated] at isHeader
  have cut : Sample.misdirected.CutsHeaderShort Sample.fullDisk := by
    refine ⟨by decide +kernel, ⟨["out.h"], by decide +kernel⟩, ?_⟩
    rw [FileTree.Takes]
    decide +kernel
  have failsFull : (run Sample.fullDisk .terminal Sample.misdirected).2.status.code ≠ 0 := by
    decide +kernel
  obtain ⟨-, isBeginning, -⟩ := (files_of_failed rfl rfl failsFull).2.1 cut
  have generatedFull : (Sample.misdirected.generated Sample.fullDisk.read).header =
      "#pragma once\n\nx" := by decide +kernel
  rw [generatedFull] at isBeginning
  exact ⟨rfl, fails, isHeader (by decide +kernel), failsFull, isBeginning⟩

/-- A run that fails may have changed a file. -/
theorem misdirected_changes_header :
    Sample.misdirected.keepOnError = false ∧
      (run Sample.folder .terminal Sample.misdirected).2.status.code = 2 ∧
      Sample.folder.file? ["out.h"] = some (.text "old") ∧
      (run Sample.folder .terminal Sample.misdirected).1.file? ["out.h"] =
        some (.text "#pragma once\n\nx") := by
  decide +kernel

/-- **What a successful run leaves behind.** The file at the path of the source holds the source,
and the file at the path of the header holds the header, both generated from what the documents held
before. Only if both paths lead to the same file, it is the source that is found there. -/
theorem contents_of_succeeded (ran : run t format request = (after, ending))
    (succeeded : ending.status.code = 0) :
    after.contents request.source = .ok (.text (request.generated t.read).source) ∧
      (t.target request.header ≠ t.target request.source →
        after.contents request.header = .ok (.text (request.generated t.read).header)) ∧
      (t.target request.header = t.target request.source →
        after.contents request.header = .ok (.text (request.generated t.read).source)) := by
  have outcome := outcome_run t format request
  rw [ran] at outcome
  obtain ⟨success, canDeliver⟩ := outcome.code_eq_zero_iff.mp succeeded
  have isAfter : after = (t.deliver (request.artifacts (request.generated t.read))).1 :=
    outcome.fst_eq_deliver (.inl success) canDeliver
  obtain ⟨takesHeader, takesSource⟩ := canDeliver
  rw [isAfter]
  exact ⟨contents_of_takes takesHeader takesSource rfl, contents_of_takes_header takesHeader,
    contents_of_takes takesHeader takesSource⟩

/-- Two files are delivered by a run that succeeds. -/
theorem contents_of_succeeded_sound :
    (run Sample.folder .terminal Sample.sound).2.status.code = 0 ∧
      (run Sample.folder .terminal Sample.sound).1.contents "out.cc" = .ok (.text "x") ∧
      (run Sample.folder .terminal Sample.sound).1.contents "out.h" =
        .ok (.text "#pragma once\n\nx") := by
  have succeeds : (run Sample.folder .terminal Sample.sound).2.status.code = 0 := by decide +kernel
  have generated : Sample.sound.generated Sample.folder.read = ⟨"#pragma once\n\nx", "x", []⟩ := by
    decide +kernel
  obtain ⟨ofSource, ofHeader, -⟩ := contents_of_succeeded rfl succeeds
  rw [generated] at ofSource ofHeader
  exact ⟨succeeds, ofSource, ofHeader (by decide +kernel)⟩

/-- A run may succeed and not have delivered the header. -/
theorem coinciding_loses_header :
    (run Sample.folder .terminal Sample.coinciding).2.status.code = 0 ∧
      (Sample.coinciding.generated Sample.folder.read).header = "#pragma once\n\nx" ∧
      (run Sample.folder .terminal Sample.coinciding).1.contents "out.h" = .ok (.text "x") := by
  decide +kernel

/-- **How a run ends.** The status is 0 exactly if every document can be loaded, no error is met in
any of them and both files can be written. It is 1 exactly if some document cannot be loaded or an
error is met in it and, if files are to be written in any case, both can be. Otherwise it is 2.

Whether files are to be written in any case does not matter to what is told of the documents. It
does not matter at all if no error was met. If there were errors and both files can be written, the
status is 1 in either case, and what was generated is found in the files if they are to be written
in any case. -/
theorem code_run {arguments : List String}
    (asked : Request.ofArguments arguments = .run ⟨format, .generate request⟩) (t : FileTree) :
    (request.keepOnError = false →
      ∃ before rest, arguments = before ++ Arguments.generateName :: rest ∧
        Request.ofArguments
            (before ++ Arguments.generateName :: Arguments.keepSwitch :: rest) =
          .run ⟨format, .generate (request.keeping true)⟩) ∧
    ((run t format request).2.status.code = 0 ↔
      AllPass t.read (fun path root => (Generated.ofDocument path root).success) request.inputs ∧
        request.CanDeliver t) ∧
    ((run t format request).2.status.code = 1 ↔
      (∃ path ∈ request.inputs, (∃ fault, Element.load t.read path = .error fault) ∨
        ∃ root, Element.load t.read path = .ok root ∧ ¬ (Generated.ofDocument path root).success) ∧
      (request.keepOnError = true → request.CanDeliver t)) ∧
    (run t format request).2.status.code ∈ [0, 1, 2] ∧
    (∀ keep, (run t format (request.keeping keep)).2.Tells
      ((request.generated t.read).diagnostics.report format)) ∧
    ((request.generated t.read).success = true →
      run t format (request.keeping true) = run t format (request.keeping false)) ∧
    ((request.generated t.read).success = false → request.CanDeliver t →
      t.target request.header ≠ t.target request.source →
      (∀ keep, (run t format (request.keeping keep)).2.status.code = 1) ∧
      (run t format (request.keeping true)).1.contents request.header =
        .ok (.text (request.generated t.read).header) ∧
      (run t format (request.keeping true)).1.contents request.source =
        .ok (.text (request.generated t.read).source)) := by
  have outcome := outcome_run t format request
  have outcomeKeeping (keep : Bool) := outcome_run t format (request.keeping keep)
  refine ⟨Request.exists_ofArguments_keepSwitch asked, ?_, ?_, ?_,
    fun keep => (outcomeKeeping keep).tells, fun success => ?_,
    fun flawed canDeliver apart => ⟨fun keep => ?_, ?_⟩⟩
  · rw [outcome.code_eq_zero_iff, success_generated_iff]
  · rw [outcome.code_eq_one_iff, ← not_allPass_iff, ← success_generated_iff, Bool.not_eq_true]
  · exact ExitStatus.code_mem_of_ne_brokenOff outcome.status_ne_brokenOff
  · rw [run_keeping_of_success success, run_keeping_of_success success]
  · exact (outcomeKeeping keep).code_eq_one_iff.mpr ⟨flawed, fun _ => canDeliver⟩
  · have isKept : (run t format (request.keeping true)).1 =
        (t.deliver (request.artifacts (request.generated t.read))).1 :=
      (outcomeKeeping true).fst_eq_deliver (.inr rfl) canDeliver
    obtain ⟨takesHeader, takesSource⟩ := canDeliver
    rw [isKept]
    exact ⟨contents_of_takes_header takesHeader apart,
      contents_of_takes takesHeader takesSource rfl⟩

/-- A document with an error ends a run with status 1, and only with the switch are files
written. -/
theorem code_run_flawed :
    Request.ofArguments ["gen", "out.cc", "out.h", "e.xml"] =
        .run ⟨.terminal, .generate Sample.flawed⟩ ∧
      (run Sample.folder .terminal (Sample.flawed.keeping false)).2.status.code = 1 ∧
      (run Sample.folder .terminal (Sample.flawed.keeping true)).2.status.code = 1 ∧
      (run Sample.folder .terminal (Sample.flawed.keeping false)).1 = Sample.folder ∧
      (run Sample.folder .terminal (Sample.flawed.keeping true)).1.contents "out.cc" =
        .ok (.text "x") := by
  have asked : Request.ofArguments ["gen", "out.cc", "out.h", "e.xml"] =
      .run ⟨.terminal, .generate Sample.flawed⟩ := by decide +kernel
  have hasError : (Sample.flawed.generated Sample.folder.read).success = false := by decide +kernel
  have isSource : (Sample.flawed.generated Sample.folder.read).source = "x" := by decide +kernel
  have canDeliver : Sample.flawed.CanDeliver Sample.folder := by
    rw [CanDeliver, FileTree.Takes, FileTree.Takes]
    decide +kernel
  obtain ⟨-, -, -, -, -, -, ends⟩ := code_run asked Sample.folder
  obtain ⟨status, -, ofSource⟩ := ends hasError canDeliver (by decide +kernel)
  rw [isSource] at ofSource
  exact ⟨asked, status false, status true, by decide +kernel, ofSource⟩

end GenerateRequest

end Stencil
