import Stencil.Json.Value
import Stencil.Mustache.Template

/-!
# Rendering text templates

A template is filled from a JSON value. Names are looked up in the values that the sections around a
tag stand for, the innermost first. A partial is rendered like the text it stands for, with its
indent before every line of it.

A value that is written has to be text. Numbers count as text here, and `null` as nothing; an
array, an object or a truth value cannot be written.

## Main definitions

* `Path.find?`: what a path names
* `Output`: what is written so far
* `Template.render`: the text of a template
-/

namespace Stencil

/-- The value as text: a string, or a number without an exponent. -/
def Json.text? : Json → Option String
  | .string value => some value
  | .number value => some (value.text Json.Number.plainLayout)
  | _ => none

/-- The value of a member. -/
def Json.member? (key : String) : Json → Option Json
  | .object members => members.lookup key
  | _ => none

namespace Mustache

/-- What a path names, the values at hand given innermost first: its first part is looked for in
all of them in turn, the others only inside what was found. -/
def Path.find? (stack : List Json) : Path → Option Json
  | [] => stack.head?
  | key :: keys => (stack.findSome? (Json.member? key)).bind fun found =>
      keys.foldlM (fun value key => value.member? key) found

/-- Why a template cannot be rendered. -/
inductive RenderFault where
  /-- A value to be written is neither text nor nothing. -/
  | notText
  /-- Partials include each other without end. -/
  | nestedTooDeep
deriving Repr, DecidableEq

/-- The wording of a reason. -/
def RenderFault.message : RenderFault → String
  | notText => "a value is neither text nor nothing"
  | nestedTooDeep => "partials include each other without end"

/-- What is written so far, and whether a line begins after it. -/
structure Output where
  text : String := ""
  startsLine : Bool := true
deriving Repr, DecidableEq

namespace Output

/-- Writes text. -/
def write (out : Output) (s : String) : Output where
  text := out.text ++ s
  startsLine := match s.toList.getLast? with
    | some c => c = '\n'
    | none => out.startsLine

/-- Writes an indent at the beginning of a line, which still counts as the beginning. -/
def writeIndent (out : Output) (indent : String) : Output :=
  if out.startsLine then { out with text := out.text ++ indent } else out

/-- Writes a line of text after an indent, unless the line is empty. -/
def writeLine (out : Output) (indent : String) (line : List Char) : Output :=
  (if line.head? = some '\n' then out else out.writeIndent indent).write (String.ofList line)

end Output

/-- The lines of a text, each with the newline that ends it. -/
def textLines : List Char → List (List Char)
  | [] => []
  | c :: s =>
    if c = '\n' then [c] :: textLines s
    else
      match textLines s with
      | line :: lines => (c :: line) :: lines
      | [] => [[c]]

/-- Writes text with an indent before every line. -/
def Output.writeText (out : Output) (indent text : String) : Output :=
  if indent.isEmpty then out.write text
  else (textLines text.toList).foldl (·.writeLine indent ·) out

/-- A character as HTML has it in text and attributes. -/
def escapeChar (c : Char) : List Char :=
  match c with
  | '<' => ['&', 'l', 't', ';']
  | '>' => ['&', 'g', 't', ';']
  | '&' => ['&', 'a', 'm', 'p', ';']
  | '"' => ['&', 'q', 'u', 'o', 't', ';']
  | '\'' => ['&', '#', '3', '9', ';']
  | c => [c]

/-- A text as HTML has it. -/
def escapeText (s : String) : String := String.ofList (s.toList.flatMap escapeChar)

/-- Writes what a value tag asks for, after the indent if a line begins. An escaped value is escaped
together with the indent. -/
def Output.writeValue (out : Output) (indent : String) (escaped : Bool) :
    Option Json → Except RenderFault Output
  | none => .ok out
  | some value =>
    let piece : Output := { out with text := "" }
    let written := match value with
      | .null => some (piece.writeIndent indent)
      | value => value.text?.map (piece.writeIndent indent).write
    match written with
    | none => .error .notText
    | some piece =>
      .ok ⟨out.text ++ if escaped then escapeText piece.text else piece.text, piece.startsLine⟩

/-- What a section's contents are rendered for: once for each of these values, or once for the
values already at hand. -/
inductive Repetition where
  | asIs
  | each (values : List Json)
deriving Repr

/-- The repetition of a section by the value that it names. -/
def Repetition.of : Option Json → Repetition
  | none | some .null | some (.bool false) => .each []
  | some (.bool true) => .asIs
  | some (.array items) => .each items
  | some (.string value) => .each (if value.isEmpty then [] else [.string value])
  | some value => .each [value]

/-- Whether an inverted section is rendered, by the value that it names. -/
def isAbsent : Option Json → Bool
  | none | some .null | some (.bool false) | some (.array []) => true
  | _ => false

/-- Renders a partial: its name, the indent of its lines, the values at hand, and what is written
so far. -/
abbrev Inclusion := String → String → List Json → Output → Except RenderFault Output

mutual

/-- Renders a node. -/
def Node.render (partials : Inclusion) (indent : String) (stack : List Json) :
    Node → Output → Except RenderFault Output
  | .text s, out => .ok (out.writeText indent s)
  | .value path escaped, out => out.writeValue indent escaped (Path.find? stack path)
  | .block path true body, out =>
    if isAbsent (Path.find? stack path) then Node.renderAll partials indent stack body out
    else .ok out
  | .block path false body, out =>
    match Repetition.of (Path.find? stack path) with
    | .asIs => Node.renderAll partials indent stack body out
    | .each values =>
      values.foldlM (fun out top => Node.renderAll partials indent (top :: stack) body out) out
  | .inclusion name more, out => partials name (indent ++ more) stack out
termination_by structural node => node

/-- Renders nodes one after the other. -/
def Node.renderAll (partials : Inclusion) (indent : String) (stack : List Json) :
    List Node → Output → Except RenderFault Output
  | [], out => .ok out
  | node :: nodes, out => do
    let out ← Node.render partials indent stack node out
    Node.renderAll partials indent stack nodes out
termination_by structural nodes => nodes

end

namespace Template

/-- Renders a partial, in which partials nest up to a depth. -/
def renderPartial (t : Template) : Nat → Inclusion
  | 0, _, _, _, _ => .error .nestedTooDeep
  | depth + 1, name, indent, stack, out =>
    Node.renderAll (t.renderPartial depth) indent stack ((t.partials.lookup name).getD []) out

/-- How deep partials may nest before they count as including each other without end. -/
def maxDepth : Nat := Nat.pow 2 20

/-- The text of a template filled from data. -/
def render (t : Template) (data : Json) : Except RenderFault String := do
  let out ← Node.renderAll (t.renderPartial maxDepth) "" [data] t.nodes {}
  return out.text

end Template

end Mustache

end Stencil
