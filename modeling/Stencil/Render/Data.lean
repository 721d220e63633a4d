import Stencil.Diagnostic.Problem
import Stencil.Json.Value

/-!
# Data for text templates

A text template is filled from a JSON object in which every leaf is text. Any JSON object is brought
into this form: truth values and numbers become their texts, and what has no text form, a `null` or
an array directly inside an array, is dropped with a warning that names the member it belongs to.

## Main definitions

* `Data.ofMembers`: the members of an object in this form, and what was dropped
* `Data.ofJson`: the data of a document
-/

namespace Stencil.Data

/-- The text of a truth value. -/
def truthText : Bool → String
  | true => "true"
  | false => "false"

/-- The warning that an element of the array at `key` was dropped. -/
def elementDropped (file key : String) : Diagnostic :=
  (Problem.elementDropped key).report file none

/-- The warning that the member at `key` was dropped. -/
def memberDropped (file key : String) : Diagnostic :=
  (Problem.memberDropped key).report file none

mutual

/-- The form of the value of the member at `key`, if it has one, and what was dropped. -/
def ofValue (file key : String) : Json → Option Json × Diagnostics
  | .null => (none, [memberDropped file key])
  | .bool value => (some (.string (truthText value)), [])
  | .number value => (some (.string (value.text Json.Number.dataLayout)), [])
  | .string value => (some (.string value), [])
  | .array items =>
    let (items, problems) := ofItems file key items
    (some (.array items), problems)
  | .object members =>
    let (members, problems) := ofMembers file members
    (some (.object members), problems)
termination_by structural value => value

/-- The form of an element of the array at `key`, if it has one, and what was dropped. Only texts
and objects have one there. -/
def ofItem (file key : String) : Json → Option Json × Diagnostics
  | .string value => (some (.string value), [])
  | .object members =>
    let (members, problems) := ofMembers file members
    (some (.object members), problems)
  | _ => (none, [elementDropped file key])
termination_by structural value => value

/-- The elements of the array at `key` that have a form, and what was dropped. -/
def ofItems (file key : String) : List Json → List Json × Diagnostics
  | [] => ([], [])
  | item :: items =>
    let (kept, problems) := ofItem file key item
    let (rest, others) := ofItems file key items
    (kept.toList ++ rest, problems ++ others)
termination_by structural items => items

/-- The members that have a form, and what was dropped. -/
def ofMembers (file : String) : List (String × Json) → List (String × Json) × Diagnostics
  | [] => ([], [])
  | (key, value) :: members =>
    let (kept, problems) := ofValue file key value
    let (rest, others) := ofMembers file members
    (kept.toList.map (key, ·) ++ rest, problems ++ others)
termination_by structural members => members

end

/-- The data of a document, and what was dropped; only an object has data. -/
def ofJson (file : String) : Json → Option (Json × Diagnostics)
  | .object members =>
    let (members, problems) := ofMembers file members
    some (.object members, problems)
  | _ => none

end Stencil.Data
