import Stencil.Command.Basic

/-!
# Arguments

A run is asked for by arguments: the name of a command, then values by their position, with
switches anywhere among them. The format of reports may be named before the command or after it, and
what is named after it counts. After two dashes every argument is a value.

Arguments are judged in order, and help that is asked for before anything is wrong is given. There
is one exception: a format that is named right before the command is judged after the command's own
arguments, so help with a command is given in spite of it.

## Main definitions

* `Signature`: what a command takes
* `Gathered`: what the arguments after a command's name give
* `Request.ofArguments`: what a list of arguments asks for
-/

namespace Stencil

/-- What arguments ask for. -/
inductive Request where
  /-- A run. -/
  | run (i : Invocation)
  /-- Only an explanation of the arguments. -/
  | help
  /-- Nothing that can be done. -/
  | rejected
deriving Repr, DecidableEq

namespace Arguments

/-- Why arguments do not ask for a run. -/
inductive Stop where
  | help
  | rejected
deriving Repr, DecidableEq

/-- What a value of a command is. -/
inductive ValueKind where
  | path
  | text
  | lineMode
deriving Repr, DecidableEq

/-- What commands are named. -/
def generateName : String := "gen"

@[inherit_doc generateName] def joinName : String := "join"

@[inherit_doc generateName] def renderName : String := "render"

@[inherit_doc generateName] def helpName : String := "help"

/-- The option before the format of reports. -/
def formatOption : String := "--format"

/-- The switch to include the header in the source. -/
def includeSwitch : String := "--include-header"

/-- The switch to write files even if errors were met. -/
def keepSwitch : String := "--keep-on-error"

/-- What stands before values that may look like switches. -/
def separator : String := "--"

/-- The values that ask for line directives or for none. -/
def lineMode? : String → Option Bool
  | "add-line" | "add_line" => some true
  | "no-line" | "no_line" => some false
  | _ => none

/-- Whether a text is a value of a kind. -/
def ValueKind.accepts : ValueKind → String → Bool
  | path, value => !value.isEmpty
  | text, _ => true
  | lineMode, value => (lineMode? value).isSome

/-- What a command takes: values by position, perhaps paths of documents after them, and
switches. -/
structure Signature where
  positions : List ValueKind
  takesInputs : Bool
  switches : List String
deriving Repr, DecidableEq

/-- The kind of the value at a position. -/
def Signature.kind? (s : Signature) (position : Nat) : Option ValueKind :=
  s.positions[position]? <|> if s.takesInputs then some .path else none

/-- What the arguments after a command's name give. -/
structure Gathered where
  format : Option ReportFormat := none
  switches : List String := []
  values : List String := []
deriving Repr, DecidableEq

namespace Gathered

/-- Adds a value. -/
def addValue (s : Signature) (g : Gathered) (value : String) : Except Stop Gathered :=
  match s.kind? g.values.length with
  | some kind =>
    if kind.accepts value then .ok { g with values := g.values ++ [value] } else .error .rejected
  | none => .error .rejected

/-- Adds a switch, which may not be given twice. -/
def addSwitch (g : Gathered) (switch : String) : Except Stop Gathered :=
  if g.switches.contains switch then .error .rejected
  else .ok { g with switches := switch :: g.switches }

end Gathered

/-- Adds the format that a text names to what may have been named before; only one may be. -/
def nameFormat (format : Option ReportFormat) (name : String) :
    Except Stop (Option ReportFormat) :=
  match format, ReportFormat.ofName? name with
  | none, some found => .ok (some found)
  | _, _ => .error .rejected

/-- The format attached to the option for it, as `--format=name`. -/
def attachedFormat? (argument : String) : Option String :=
  let start := formatOption.toList ++ ['=']
  if start.isPrefixOf argument.toList then some (String.ofList (argument.toList.drop start.length))
  else none

/-- Whether an argument asks for help. -/
def asksForHelp (argument : String) : Bool :=
  argument = "--help" || ['-', 'h'].isPrefixOf argument.toList

/-- Whether an argument can only be a switch or an option. -/
def isDashed (argument : String) : Bool :=
  argument.toList.head? = some '-' && argument ≠ "-"

/-- Gathers the arguments after a command's name. -/
def gather (s : Signature) (g : Gathered) : List String → Except Stop Gathered
  | [] => .ok g
  | argument :: rest =>
    if argument = separator then rest.foldlM (Gathered.addValue s) g
    else if argument = formatOption then
      match rest with
      | [] => .error .rejected
      | name :: rest => do
        let format ← nameFormat g.format name
        gather s { g with format } rest
    else if asksForHelp argument then .error .help
    else if s.switches.contains argument then do
      let g ← g.addSwitch argument
      gather s g rest
    else
      match attachedFormat? argument with
      | some name => do
        let format ← nameFormat g.format name
        gather s { g with format } rest
      | none =>
        if isDashed argument then .error .rejected
        else do
          let g ← g.addValue s argument
          gather s g rest

/-- What the command to generate takes. -/
def generateSignature : Signature := ⟨[.path, .path], true, [includeSwitch, keepSwitch]⟩

/-- What the command to join takes. -/
def joinSignature : Signature := ⟨[.path, .text, .lineMode], true, []⟩

/-- What the command to render takes. -/
def renderSignature : Signature := ⟨[.path, .path, .path], false, []⟩

/-- The command to generate, from what was gathered. -/
def generateCommand (g : Gathered) : Option Command :=
  match g.values with
  | source :: header :: input :: inputs =>
    some (.generate ⟨source, header, input :: inputs, g.switches.contains includeSwitch,
      g.switches.contains keepSwitch⟩)
  | _ => none

/-- The command to join, from what was gathered. -/
def joinCommand (g : Gathered) : Option Command :=
  match g.values with
  | output :: pattern :: mode :: input :: inputs =>
    (lineMode? mode).map fun lineDirectives =>
      .join ⟨output, pattern, lineDirectives, input :: inputs⟩
  | _ => none

/-- The command to render, from what was gathered. -/
def renderCommand (g : Gathered) : Option Command :=
  match g.values with
  | [template, document, output] => some (.render ⟨template, document, output⟩)
  | _ => none

/-- What a command with the given arguments after its name asks for; `named` is what naming a format
before the command gave, which is looked at only if the arguments ask for a run. -/
def readCommand (named : Except Stop (Option ReportFormat)) (s : Signature)
    (command : Gathered → Option Command) (arguments : List String) : Request :=
  match gather s {} arguments with
  | .error .help => .help
  | .error .rejected => .rejected
  | .ok g =>
    match command g, named with
    | some command, .ok format => .run ⟨(g.format <|> format).getD .terminal, command⟩
    | _, _ => .rejected

/-- What the arguments after the command for help ask for: help with a command, if one is named. -/
def readHelp (arguments : List String) : Request :=
  match arguments with
  | [] => .help
  | [name] =>
    if [generateName, joinName, renderName, helpName].contains name then .help else .rejected
  | _ => .rejected

/-- Whether an argument before the command asks for the version, or for help. -/
def asksForInformation (argument : String) : Bool :=
  asksForHelp argument || argument = "--version" || ['-', 'V'].isPrefixOf argument.toList

/-- What arguments ask for; `named` is what naming a format before them gave. A fault in it is left
to the command if its name comes next, and else ends the reading. -/
def read (named : Except Stop (Option ReportFormat)) : List String → Request
  | [] => .rejected
  | argument :: rest =>
    if argument = generateName then readCommand named generateSignature generateCommand rest
    else if argument = joinName then readCommand named joinSignature joinCommand rest
    else if argument = renderName then readCommand named renderSignature renderCommand rest
    else if argument = helpName then readHelp rest
    else
      match named with
      | .error _ => .rejected
      | .ok format =>
        if argument = formatOption then
          match rest with
          | [] => .rejected
          | name :: rest =>
            if isDashed name then .rejected else read (nameFormat format name) rest
        else if asksForInformation argument then .help
        else
          match (attachedFormat? argument).map (nameFormat format) with
          | some (.ok format) => read (.ok format) rest
          | _ => .rejected

end Arguments

/-- What a list of arguments asks for. -/
def Request.ofArguments (arguments : List String) : Request :=
  Arguments.read (.ok none) arguments

end Stencil
