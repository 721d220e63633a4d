import Stencil.Command.Arguments

/-!
# The program

Reads the arguments and the files that the command needs, reports, and writes what the plan of the
run says.
-/

namespace Stencil.Main

/-- How the program is used. -/
def usage : String :=
  "Usage: [--format terminal|json] COMMAND\n\n" ++
  "Commands:\n" ++
  "  gen SOURCE HEADER INPUT... [--include-header] [--keep-on-error]\n" ++
  "  join OUTPUT PATTERN add-line|no-line INPUT...\n" ++
  "  render TEMPLATE DATA OUTPUT\n"

/-- A reason of the system, by its number and wording. -/
def systemFault (code : UInt32) (details : String) : FileFault :=
  if code = 2 then .missing
  else if code = 20 then .notDirectory
  else if code = 21 then .isDirectory
  else if code = 36 then .nameTooLong
  else .other s!"{details} (os error {code})"

/-- Why the system refuses a file. -/
def fileFault : IO.Error → FileFault
  | .noFileOrDirectory _ code details
  | .interrupted _ code details
  | .alreadyExists _ code details
  | .invalidArgument _ code details
  | .permissionDenied _ code details
  | .resourceExhausted _ code details
  | .inappropriateType _ code details
  | .noSuchThing _ code details
  | .otherError code details
  | .resourceBusy code details
  | .resourceVanished code details
  | .unsupportedOperation code details
  | .hardwareFault code details
  | .unsatisfiedConstraints code details
  | .illegalOperation code details
  | .protocolError code details
  | .timeExpired code details => systemFault code details
  | .unexpectedEof => .other "unexpected end of file"
  | .userError message => .other message

/-- The text in a file. -/
def readText (path : String) : IO (Except FileFault String) := do
  if path.toList.contains '\x00' then return .error .nulInPath
  try
    let handle ← IO.FS.Handle.mk path .read
    match String.fromUTF8? (← handle.readBinToEnd) with
    | some text => return .ok text
    | none => return .error .notText
  catch e => return .error (fileFault e)

/-- Files that were read, with what reading them gave. -/
abbrev Known := List (String × Except FileFault String)

/-- What is known of a file. -/
def Known.reader (known : Known) : FileReader := fun path =>
  (known.lookup path).getD (.error .missing)

/-- Reads files that hold partials, and those that they mention. -/
partial def readPartials (known : Known) : List String → IO Known
  | [] => return known
  | path :: paths => do
    if (known.lookup path).isSome then readPartials known paths
    else
      let found ← readText path
      let mentioned := match found with
        | .ok text => Mustache.Template.files text
        | .error _ => []
      readPartials ((path, found) :: known) (mentioned ++ paths)

/-- Reads all files that a command needs. -/
def readFiles (command : Command) : IO Known := do
  let known ← command.inputs.mapM fun path => return (path, ← readText path)
  match command with
  | .render request =>
    match Known.reader known request.template with
    | .ok text =>
      return known ++ (← readPartials [] (Mustache.Template.files (verbatimTemplate text)))
    | .error _ => return known
  | _ => return known

/-- Writes artifacts in order; gives the message about the first that cannot be written. -/
def deliver : List Artifact → IO (Option String)
  | [] => return none
  | a :: rest => do
    if a.path.toList.contains '\x00' then return some (a.failure .nulInPath)
    try
      IO.FS.writeFile a.path a.text
    catch e => return some (a.failure (fileFault e))
    deliver rest

/-- Carries out a run; gives the number that tells how it ended. -/
def run (i : Invocation) : IO Nat := do
  let known ← readFiles i.command
  let plan := i.plan known.reader
  IO.eprint plan.report
  match ← deliver plan.artifacts with
  | none => return plan.status.code
  | some message =>
    IO.eprint (failureLine message)
    return ExitStatus.failure.code

end Stencil.Main

/-- The program. -/
def main (arguments : List String) : IO UInt32 := do
  match Stencil.Request.ofArguments arguments with
  | .run i => return (← Stencil.Main.run i).toUInt32
  | .help =>
    IO.print Stencil.Main.usage
    return 0
  | .rejected =>
    IO.eprint Stencil.Main.usage
    return Stencil.ExitStatus.failure.code.toUInt32
