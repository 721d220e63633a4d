import Stencil.Json.Value

/-!
# Writing JSON

JSON is written in one of two styles: compact, without any blanks, or pretty, with every item and
member on a line of its own, indented by two spaces per level. Only the characters that have to be
escaped in a string are.
-/

namespace Stencil.Json

/-- How JSON is laid out. -/
inductive Style where
  | compact
  | pretty
deriving Repr, DecidableEq

/-- A hexadecimal digit, in lower case. -/
def hexDigit (n : Nat) : Char :=
  if n < 10 then Char.ofNat ('0'.toNat + n) else Char.ofNat ('a'.toNat + (n - 10))

/-- A character inside a string. -/
def escapeChar (c : Char) : List Char :=
  if c = '"' then ['\\', '"']
  else if c = '\\' then ['\\', '\\']
  else if c = '\x08' then ['\\', 'b']
  else if c = '\x0c' then ['\\', 'f']
  else if c = '\n' then ['\\', 'n']
  else if c = '\r' then ['\\', 'r']
  else if c = '\t' then ['\\', 't']
  else if c.toNat < 0x20 then
    ['\\', 'u', '0', '0', hexDigit (c.toNat / 16), hexDigit (c.toNat % 16)]
  else [c]

/-- A string in quotes. -/
def writeString (s : String) : List Char :=
  '"' :: s.toList.flatMap escapeChar ++ ['"']

namespace Style

/-- What stands before an item at a nesting level. -/
def lineBreak : Style → Nat → List Char
  | compact, _ => []
  | pretty, level => '\n' :: List.replicate (2 * level) ' '

/-- What stands between a key and its value. -/
def keyEnd : Style → List Char
  | compact => [':']
  | pretty => [':', ' ']

end Style

mutual

/-- Writes a value at a nesting level. -/
def write (style : Style) (level : Nat) : Json → List Char
  | .null => ['n', 'u', 'l', 'l']
  | .bool true => ['t', 'r', 'u', 'e']
  | .bool false => ['f', 'a', 'l', 's', 'e']
  | .number n => (n.text Number.dataLayout).toList
  | .string s => writeString s
  | .array [] => ['[', ']']
  | .array (item :: items) =>
    '[' :: style.lineBreak (level + 1) ++ write style (level + 1) item ++
      writeItems style (level + 1) items ++ style.lineBreak level ++ [']']
  | .object [] => ['\x7b', '\x7d']
  | .object ((key, value) :: members) =>
    '\x7b' :: style.lineBreak (level + 1) ++ writeString key ++ style.keyEnd ++
      write style (level + 1) value ++ writeMembers style (level + 1) members ++
      style.lineBreak level ++ ['\x7d']
termination_by structural value => value

/-- Writes the items after the first one. -/
def writeItems (style : Style) (level : Nat) : List Json → List Char
  | [] => []
  | item :: items =>
    ',' :: style.lineBreak level ++ write style level item ++ writeItems style level items
termination_by structural items => items

/-- Writes the members after the first one. -/
def writeMembers (style : Style) (level : Nat) : List (String × Json) → List Char
  | [] => []
  | (key, value) :: members =>
    ',' :: style.lineBreak level ++ writeString key ++ style.keyEnd ++
      write style level value ++ writeMembers style level members
termination_by structural members => members

end

/-- The text of a value. -/
def render (style : Style) (value : Json) : String := String.ofList (write style 0 value)

end Stencil.Json
