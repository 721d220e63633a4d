import Stencil.Mustache.Fault
import Stencil.Text.Blank
import Stencil.Text.Split

/-!
# Tags of a text template

What stands between two delimiters is told by its very first character: a comment, a section's
beginning or end, a partial, new delimiters, a value written as it is, or otherwise a value written
with the characters that are special in HTML escaped. Blanks around names do not count; a blank
before the first character does, as it makes the tag a value.

## Main definitions

* `Path`: the name of a value
* `Delimiters`: what tags begin and end with
* `Tag.read`: the tag with a given text
-/

namespace Stencil.Mustache

open Stencil.Text

/-- The name of a value, by the names on the way to it; the empty path names the value at hand. -/
abbrev Path := List String

/-- The path that a name spells: a point alone is the value at hand, and otherwise the parts stand
between points; a point at the end is redundant. -/
def Path.ofName (name : List Char) : Path :=
  if name = ['.'] then []
  else
    let parts := splitAt '.' name
    (if parts.getLast? = some [] then parts.dropLast else parts).map String.ofList

/-- A delimiter: its first character and the others. -/
structure Delimiter where
  first : Char
  later : List Char
deriving Repr, DecidableEq

/-- What tags begin and end with. -/
structure Delimiters where
  opening : Delimiter
  closing : Delimiter
deriving Repr, DecidableEq

/-- Two braces on either side. -/
def Delimiters.braces : Delimiters := ⟨⟨'\x7b', ['\x7b']⟩, ⟨'\x7d', ['\x7d']⟩⟩

/-- A tag of a text template. -/
inductive Tag where
  | comment
  | delimiters (delimiters : Delimiters)
  | value (path : Path) (escaped : Bool)
  | sectionStart (path : Path) (inverted : Bool)
  | sectionEnd (path : Path)
  | inclusion (name : String)
deriving Repr, DecidableEq

/-- A text without the blanks around it; it may not be blank altogether. -/
def trimmedName (s : List Char) : Except TemplateFault (List Char) :=
  match trim s with
  | [] => .error .emptyTag
  | name => .ok name

/-- The path that a text names. -/
def readPath (s : List Char) : Except TemplateFault Path :=
  (trimmedName s).map Path.ofName

/-- The delimiters that a text between equals signs names. -/
def Delimiters.read (s : List Char) : Except TemplateFault Delimiters := do
  let s ← trimmedName s
  match s.takeWhile (!isBlank ·), trimStart (s.dropWhile (!isBlank ·)) with
  | o :: opening, c :: closing => .ok ⟨⟨o, opening⟩, ⟨c, closing⟩⟩
  | _, _ => .error .closingDelimiterMissing

/-- The part of a text before its last character, which has to be `last`. -/
def dropLastIf (last : Char) (s : List Char) : Option (List Char) :=
  if s.getLast? = some last then some s.dropLast else none

/-- The tag with a given text. -/
def Tag.read (content : List Char) : Except TemplateFault Tag :=
  if (trim content).isEmpty then .error .emptyTag
  else
    match content with
    | '!' :: _ => .ok .comment
    | '&' :: s => (readPath s).map (.value · false)
    | '\x7b' :: s =>
      match dropLastIf '\x7d' s with
      | some inside => (readPath inside).map (.value · false)
      | none => .error .unbalancedBraces
    | '#' :: s => (readPath s).map (.sectionStart · false)
    | '^' :: s => (readPath s).map (.sectionStart · true)
    | '/' :: s => (readPath s).map .sectionEnd
    | '>' :: s => (trimmedName s).map (.inclusion ∘ String.ofList)
    | '=' :: s =>
      match dropLastIf '=' s with
      | some [] | none => .error .malformedDelimiters
      | some inside => (Delimiters.read inside).map .delimiters
    | _ => (readPath content).map (.value · true)

end Stencil.Mustache
