import Stencil.Text.Literal

/-!
# Directives and transforms

A template is text with elements in it. Every element is a directive, told by its tag; a `var`
directive may ask for its value to be transformed before it is written.
-/

namespace Stencil

/-- What an element of a template asks for. -/
inductive Directive where
  /-- Write the contents to the source stream only. -/
  | source
  /-- Write the contents to the header stream only. -/
  | header
  /-- Write the contents once per row of a table. -/
  | expand
  /-- Write a value of a row. -/
  | var
  /-- Write an enumeration to the header. -/
  | enum
  /-- Write an array: its declaration to the header, its definition to the source. -/
  | expandData
deriving Repr, DecidableEq

namespace Directive

/-- All directives. -/
def all : List Directive := [source, header, expand, var, enum, expandData]

/-- The tag of a directive. -/
def tag : Directive → String
  | source => "source"
  | header => "header"
  | expand => "expand"
  | var => "var"
  | enum => "enum"
  | expandData => "expand_data"

/-- The directive with a given tag. -/
def ofTag? (tag : String) : Option Directive := all.find? (·.tag = tag)

/-- A directive as a message names it. -/
def display (d : Directive) : String := "<" ++ d.tag ++ ">"

/-- Tags tell directives apart. -/
theorem ofTag?_tag (d : Directive) : ofTag? d.tag = some d := by
  cases d <;> decide

/-- A directive is known by its tag. -/
theorem ofTag?_eq_some_iff {tag : String} {d : Directive} : ofTag? tag = some d ↔ tag = d.tag := by
  constructor
  · intro found
    have same := List.find?_some found
    exact (of_decide_eq_true same).symm
  · rintro rfl
    exact ofTag?_tag d

end Directive

/-- How a value is written. -/
inductive Transform where
  /-- As a string literal. -/
  | string
  /-- As it is. -/
  | raw
deriving Repr, DecidableEq

namespace Transform

/-- The transform with a given name. -/
def ofName? : String → Option Transform
  | "string" => some string
  | "raw" | "none" => some raw
  | _ => none

/-- The transformed value. -/
def apply : Transform → String → String
  | string, value => Text.quote value
  | raw, value => value

end Transform

end Stencil
