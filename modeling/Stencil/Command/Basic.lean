import Stencil.Diagnostic.Report
import Stencil.Generate
import Stencil.Pattern
import Stencil.Render

/-!
# Commands

A run of the program carries out one command: it generates, joins or renders. The command's inputs
are read first, then problems are reported, and then files are written, so a run is planned from
what its inputs hold and the plan is carried out on a tree of files.

## Main definitions

* `Command`, `Invocation`: what a run is asked to do
* `Plan`: the report and the files of a run
* `Invocation.plan`: the plan of a run
* `Plan.perform`, `Invocation.run`: the tree and the ending of a run
-/

namespace Stencil

/-- A command. -/
inductive Command where
  | generate (request : GenerateRequest)
  | join (request : JoinRequest)
  | render (request : RenderRequest)
deriving Repr, DecidableEq

/-- A command and the format in which problems are reported. -/
structure Invocation where
  format : ReportFormat
  command : Command
deriving Repr, DecidableEq

/-- How a run ends. -/
inductive ExitStatus where
  /-- All went well. -/
  | success
  /-- Errors in documents were reported. -/
  | problems
  /-- The run could not be carried out. -/
  | failure
  /-- The run broke off. -/
  | brokenOff
deriving Repr, DecidableEq

/-- The number that tells the caller of the program how a run ended. -/
def ExitStatus.code : ExitStatus → Nat
  | success => 0
  | problems => 1
  | failure => 2
  | brokenOff => 101

/-- A planned run: what is reported, what is written after that, and how the run ends if all of that
can be written. -/
structure Plan where
  report : String
  artifacts : List Artifact := []
  status : ExitStatus
deriving Repr, DecidableEq

/-- What a run reported, and how it ended. -/
structure Ending where
  report : String
  status : ExitStatus
deriving Repr, DecidableEq

/-- The line of a report that tells why a run could not be carried out. -/
def failureLine (message : String) : String := "Error: " ++ message ++ "\n"

/-- The status of a run that reported problems. -/
def Diagnostics.status (ds : Diagnostics) : ExitStatus :=
  if ds.isSuccess then .success else .problems

namespace Command

/-- The plan to generate: files are written if no error was met, or in any case if that is asked
for. -/
def planGenerate (read : FileReader) (format : ReportFormat) (request : GenerateRequest) : Plan :=
  let g := request.generated read
  { report := g.diagnostics.report format
    artifacts := if g.success || request.keepOnError then request.artifacts g else []
    status := g.diagnostics.status }

/-- The plan to join: the file is written if no error was met. -/
def planJoin (read : FileReader) (format : ReportFormat) (request : JoinRequest) : Plan :=
  let j := request.joined read
  { report := j.diagnostics.report format
    artifacts := if j.success then request.artifacts j else []
    status := j.diagnostics.status }

/-- The plan to render: the file is written if there is a text to be written. -/
def planRender (read : FileReader) (format : ReportFormat) (request : RenderRequest) : Plan :=
  match request.rendered read with
  | .ok r =>
    { report := r.diagnostics.report format
      artifacts := request.artifacts r
      status := r.diagnostics.status }
  | .error fault =>
    { report := failureLine fault.message
      status := if fault.breaksOff then .brokenOff else .failure }

/-- The files that a command reads, the partials of a text template apart. -/
def inputs : Command → List String
  | generate request => request.inputs
  | join request => request.inputs
  | render request => [request.template, request.document]

end Command

/-- The plan of a run, from what files hold. -/
def Invocation.plan (read : FileReader) (i : Invocation) : Plan :=
  match i.command with
  | .generate request => Command.planGenerate read i.format request
  | .join request => Command.planJoin read i.format request
  | .render request => Command.planRender read i.format request

/-- The ending of a planned run, by the message about a file that could not be written. -/
def Plan.ending (p : Plan) : Option String → Ending
  | none => ⟨p.report, p.status⟩
  | some message => ⟨p.report ++ failureLine message, .failure⟩

/-- Carries out a plan on a tree of files. -/
def Plan.perform (t : FileTree) (p : Plan) : FileTree × Ending :=
  let (t, complaint) := t.deliver p.artifacts
  (t, p.ending complaint)

/-- A run on a tree of files: the tree afterwards, and the ending. -/
def Invocation.run (t : FileTree) (i : Invocation) : FileTree × Ending :=
  (i.plan t.read).perform t

end Stencil
