import Stencil.Text.Blank

/-!
# Values as they are

Generated text is no HTML, so values are to be written as they are. An ampersand at the front of a
tag asks for that, and before a template is read every tag between two braces that would have its
value escaped is given one.
-/

namespace Stencil.Mustache

open Stencil.Text

/-- The characters that make a tag something else than an escaped value. -/
def sigils : List Char := ['\x7b', '&', '#', '^', '/', '!', '>', '=']

/-- Whether the tag whose text begins here is an escaped value: its first character that is not
blank is no sigil. -/
def beginsValue (s : List Char) : Bool :=
  match trimStart s with
  | [] => true
  | c :: _ => !sigils.contains c

/-- A template with an ampersand in every tag between two braces that is an escaped value. -/
def verbatim : List Char → List Char
  | '\x7b' :: '\x7b' :: s =>
    if beginsValue s then '\x7b' :: '\x7b' :: '&' :: verbatim s else '\x7b' :: '\x7b' :: verbatim s
  | c :: s => c :: verbatim s
  | [] => []

end Stencil.Mustache
