import Stencil.Markup.Attribute
import Stencil.Markup.Element
import Stencil.Markup.Reference
import Stencil.Markup.Token

/-!
# Events of a document

Read in order, the tokens of a document tell of elements being opened and closed and of character
data between them. An event is a token understood: the attributes of a tag are taken apart, the
references in character data and in attribute values are resolved, and the line is known. A closing
tag makes an event only if it closes the element that was opened last.

The text is read in order up to the first thing that is wrong with it, whether it is a malformed
piece of markup, an attribute, a reference or a closing tag of another name.

## Main definitions

* `Event`: what happens at a token
* `DocumentFault`: why a text is no document
* `Event.ofToken`: the event at a token, if the token can be understood
* `Event.nest`: the names of the open elements after an event
* `Event.ofText`: the events of a text, up to the first fault
-/

namespace Stencil.Markup

open Stencil.Text

/-- Why a text is no document, with the lines concerned. -/
inductive DocumentFault where
  | malformed (line : Nat) (cause : MarkupFault)
  | badAttribute (element : String) (line : Nat) (cause : AttributeFault)
  | badValue (key : String) (line : Nat) (cause : ReferenceFault)
  | badText (line : Nat) (cause : ReferenceFault)
  | textOutsideRoot (line : Nat)
  | secondRoot (name : String) (line : Nat)
  | unexpectedClose (line : Nat)
  | unclosed (name : String) (line : Nat)
  | noRoot
deriving Repr, DecidableEq

/-- The message of a fault, its causes included. -/
def DocumentFault.message : DocumentFault → String
  | .malformed line cause => s!"Malformed XML near line {line}: {cause.message}"
  | .badAttribute element line cause =>
    s!"Invalid attribute on <{element}> at line {line}: {cause.message}"
  | .badValue key line cause =>
    s!"Invalid value for attribute `{key}` at line {line}: {cause.message}"
  | .badText line cause => s!"Invalid character data on line {line}: {cause.message}"
  | .textOutsideRoot line => s!"Text outside the root element on line {line}"
  | .secondRoot name line => s!"Second root element <{name}> on line {line}"
  | .unexpectedClose line => s!"Unexpected closing tag on line {line}"
  | .unclosed name line => s!"Unclosed element <{name}> opened on line {line}"
  | .noRoot => "Document has no root element"

/-- What happens at a token. -/
inductive Event where
  | opening (tag : Tag)
  | selfClosing (tag : Tag)
  | closing (name : String) (line : Nat)
  | characters (value : String) (line : Nat)
  | aside
deriving Repr, DecidableEq

/-- Takes the attributes in a suffix of a tag of `length` bytes apart, one after the other: each
value is decoded before the next key is looked at. `earlier` holds the attributes before the
suffix, the last one first. -/
def Tag.readAttributes (element : String) (line length : Nat) (earlier : List Attribute)
    (s : List Char) : Except DocumentFault (List (String × String)) :=
  match _ : Attribute.next? length earlier s with
  | .error cause => .error (.badAttribute element line cause)
  | .ok none => .ok []
  | .ok (some (first, rest)) =>
    let key := String.ofList first.key
    match Reference.decode first.raw with
    | .error cause => .error (.badValue key line cause)
    | .ok value => do
      let others ← Tag.readAttributes element line length (first :: earlier) rest
      return (key, String.ofList value) :: others
termination_by s.length
decreasing_by exact Attribute.length_lt_of_next? ‹_›

/-- Reads the content of an opening tag: a name up to the first blank, then attributes. -/
def Tag.read (line : Nat) (content : List Char) : Except DocumentFault Tag := do
  let name := String.ofList (content.takeWhile (!isSpace ·))
  let attributes ← Tag.readAttributes name line (byteLength content) []
    (content.dropWhile (!isSpace ·))
  return ⟨name, attributes, line⟩

/-- The event at a token on a given line. -/
def Event.ofToken (line : Nat) (token : Token) : Except DocumentFault Event :=
  match token.piece with
  | .text raw =>
    match Reference.decode raw with
    | .ok value => .ok (.characters (String.ofList value) line)
    | .error cause => .error (.badText line cause)
  | .cdata content => .ok (.characters (String.ofList content) line)
  | .opening content => .opening <$> Tag.read line content
  | .selfClosing content => .selfClosing <$> Tag.read line content
  | .closing name => .ok (.closing (String.ofList name) line)
  | .comment _ | .instruction _ | .doctype _ => .ok .aside

/-- The names of the elements that are open after an event, innermost first, if `names` are those
before it. A closing tag must close the innermost one. -/
def Event.nest (names : List String) : Event → Except MarkupFault (List String)
  | .opening tag => .ok (tag.name :: names)
  | .closing name _ =>
    match names with
    | [] => .error (.unmatchedClose name)
    | expected :: outer =>
      if name = expected then .ok outer else .error (.mismatchedClose expected name)
  | .selfClosing _ | .characters _ _ | .aside => .ok names

/-- The events at tokens up to the first fault, and that fault if there is one; `cause` is what is
wrong with the text after the tokens. The first token starts at byte `offset`, where the elements
`names` are open. -/
def Event.ofTokens (index : LineIndex) (cause : Option MarkupFault) (names : List String)
    (offset : Nat) : List Token → List Event × Option DocumentFault
  | [] => ([], cause.map (.malformed (index.lineOf offset)))
  | token :: tokens =>
    let line := index.lineOf offset
    match Event.ofToken line token with
    | .error fault => ([], some fault)
    | .ok event =>
      match event.nest names with
      | .error cause => ([], some (.malformed line cause))
      | .ok names =>
        let (events, fault) :=
          Event.ofTokens index cause names (offset + byteLength token.lexeme) tokens
        (event :: events, fault)

/-- A text without the byte order mark that may begin it. -/
def dropMark : List Char → List Char
  | '\uFEFF' :: s => s
  | s => s

/-- The events of a text up to the first fault, and that fault if there is one. Byte offsets are
counted from after a byte order mark, while the line index is that of the whole text: the lines of a
document that begins with a mark are those of the bytes three places earlier. -/
def Event.ofText (text : List Char) : List Event × Option DocumentFault :=
  let (tokens, cause) := Token.scan (dropMark text)
  Event.ofTokens (LineIndex.ofText text) cause [] 0 tokens

end Stencil.Markup
