import Stencil.Json.Token

/-!
# Reading JSON

The tokens of a JSON text are taken in one by one. What may come next depends on the innermost
array or object that is open and on what came before, and a token that may not come tells what was
awaited instead. Arrays and objects nest up to 127 deep.

## Main definitions

* `Reading`: the arrays and objects that are open, and what may come next
* `Reading.feed`: takes in a token
* `Json.parse`: the value of a text
-/

namespace Stencil.Json

/-- An array or object that is not closed yet, with its contents so far, the last one first; of an
object also the last key. -/
inductive Container where
  | array (reversed : List Json)
  | object (reversed : List (String × Json)) (key : String)
deriving Repr

/-- What may come next: a value, or something that depends on the container around it. -/
inductive Awaited where
  | value
  | firstItem
  | laterItem
  | firstKey
  | laterKey
  | colon
  | separator
  | nothing
deriving Repr, DecidableEq

/-- Where reading stands after some tokens: the open containers, innermost first, what may come
next, and the value of the text once it is complete. -/
structure Reading where
  opened : List Container := []
  awaited : Awaited := .value
  root : Json := .null
deriving Repr

namespace Reading

/-- How deep containers may nest. -/
def maxDepth : Nat := 127

/-- Puts a complete value into the innermost container. -/
def complete (r : Reading) (value : Json) : Reading :=
  match r.opened with
  | [] => { r with awaited := .nothing, root := value }
  | .array items :: outer =>
    { r with opened := .array (value :: items) :: outer, awaited := .separator }
  | .object members key :: outer =>
    { r with opened := .object ((key, value) :: members) key :: outer, awaited := .separator }

/-- Opens a container. -/
def openContainer (r : Reading) (token : Token) (container : Container) (awaited : Awaited) :
    Except Fault Reading :=
  if r.opened.length < maxDepth then
    .ok { r with opened := container :: r.opened, awaited }
  else .error ⟨.nestedTooDeep, token.start + 1⟩

/-- Closes the innermost container. -/
def closeContainer (r : Reading) : Reading :=
  match r.opened with
  | [] => r
  | .array items :: outer => complete { r with opened := outer } (.array items.reverse)
  | .object members _ :: outer => complete { r with opened := outer } (ofMembers members.reverse)

/-- Takes in a token where a value is awaited. -/
def feedValue (r : Reading) (token : Token) : Except Fault Reading :=
  match token.lexical with
  | .string value => .ok (r.complete (.string value))
  | .scalar value => .ok (r.complete value)
  | .openArray => r.openContainer token (.array []) .firstItem
  | .openObject => r.openContainer token (.object [] "") .firstKey
  | .badString fault | .bad fault => .error fault
  | .closeArray | .closeObject | .comma | .colon => .error ⟨.valueExpected, token.start + 1⟩

/-- Takes in a token where a key is awaited. -/
def feedKey (r : Reading) (token : Token) : Except Fault Reading :=
  match token.lexical, r.opened with
  | .string key, .object members _ :: outer =>
    .ok { r with opened := .object members key :: outer, awaited := .colon }
  | .badString fault, _ => .error fault
  | _, _ => .error ⟨.keyExpected, token.start + 1⟩

/-- Takes in a token after a value in a container. -/
def feedSeparator (r : Reading) (token : Token) : Except Fault Reading :=
  match r.opened, token.lexical with
  | .object _ _ :: _, .comma => .ok { r with awaited := .laterKey }
  | .object _ _ :: _, .closeObject => .ok r.closeContainer
  | .object _ _ :: _, _ => .error ⟨.memberEndExpected, token.start + 1⟩
  | _, .comma => .ok { r with awaited := .laterItem }
  | _, .closeArray => .ok r.closeContainer
  | _, _ => .error ⟨.itemEndExpected, token.start + 1⟩

/-- Takes in a token. -/
def feed (r : Reading) (token : Token) : Except Fault Reading :=
  match r.awaited, token.lexical with
  | .value, _ => r.feedValue token
  | .firstItem, .closeArray => .ok r.closeContainer
  | .firstItem, _ => r.feedValue token
  | .laterItem, .closeArray => .error ⟨.trailingComma, token.start + 1⟩
  | .laterItem, _ => r.feedValue token
  | .firstKey, .closeObject => .ok r.closeContainer
  | .firstKey, _ => r.feedKey token
  | .laterKey, .closeObject => .error ⟨.trailingComma, token.start + 1⟩
  | .laterKey, _ => r.feedKey token
  | .colon, .colon => .ok { r with awaited := .value }
  | .colon, _ => .error ⟨.colonExpected, token.start + 1⟩
  | .separator, _ => r.feedSeparator token
  | .nothing, _ => .error ⟨.trailingCharacters, token.start + 1⟩

/-- The value of the text, once no tokens are left after `size` bytes. -/
def finish (r : Reading) (size : Nat) : Except Fault Json :=
  match r.awaited, r.opened with
  | .nothing, _ => .ok r.root
  | .value, _ | .laterItem, _ | .laterKey, _ => .error ⟨.valueCutOff, size⟩
  | .firstItem, _ => .error ⟨.arrayCutOff, size⟩
  | .firstKey, _ | .colon, _ | .separator, .object _ _ :: _ => .error ⟨.objectCutOff, size⟩
  | .separator, _ => .error ⟨.arrayCutOff, size⟩

end Reading

/-- The value of a text. -/
def parse (text : String) : Except Fault Json := do
  let (tokens, size) := Token.scan 0 text.toList
  let reading ← tokens.foldlM Reading.feed {}
  reading.finish size

end Stencil.Json
