import Stencil.Decimal.Shortest

/-!
# JSON values

Numbers come in two kinds: whole numbers that fit 64 bits, signed or unsigned, are kept exactly,
all others as binary64 numbers. The members of an object are a list; what is read has them in
ascending order of their keys and no key twice, and what is written keeps the order given.
-/

namespace Stencil

/-- A JSON number. -/
inductive Json.Number where
  | integer (value : Int)
  | float (value : Float)
deriving Repr

/-- A JSON value. -/
inductive Json where
  | null
  | bool (value : Bool)
  | number (value : Json.Number)
  | string (value : String)
  | array (items : List Json)
  | object (members : List (String × Json))
deriving Repr

namespace Json

/-- Numbers in data: those of middling size without an exponent, and always with a point. -/
def Number.dataLayout : Decimal.Layout where
  plain := some (-5, 16)
  keepsPoint := true
  tiesUp := false

/-- Numbers in text: never with an exponent, and with a point only where it is needed. -/
def Number.plainLayout : Decimal.Layout where
  plain := none
  keepsPoint := false
  tiesUp := true

/-- The text of a number, floats laid out as asked for. -/
def Number.text (layout : Decimal.Layout) : Number → String
  | .integer value => toString value
  | .float value => layout.text value

/-- Adds a member in key order; a member with the same key is replaced. -/
def insertMember (key : String) (value : Json) : List (String × Json) → List (String × Json)
  | [] => [(key, value)]
  | (k, v) :: members =>
    if key < k then (key, value) :: (k, v) :: members
    else if key = k then (key, value) :: members
    else (k, v) :: insertMember key value members

/-- The object with the given members: in key order, the last of those with the same key. -/
def ofMembers (members : List (String × Json)) : Json :=
  .object (members.foldl (fun sorted (key, value) => insertMember key value sorted) [])

end Json

end Stencil
