/-!
# String literals

A value becomes a literal of the generated code by standing between double quotes, with five
characters escaped by a backslash. All other characters, among them control characters and
anything beyond ASCII, stand for themselves.
-/

namespace Stencil.Text

/-- What follows the backslash where `c` has to be escaped. -/
def escapeLetter? : Char → Option Char
  | '\\' => some '\\'
  | '\'' => some '\''
  | '"' => some '"'
  | '\n' => some 'n'
  | '\t' => some 't'
  | _ => none

/-- The inside of a literal. -/
def escape : List Char → List Char
  | [] => []
  | c :: s =>
    match escapeLetter? c with
    | some letter => '\\' :: letter :: escape s
    | none => c :: escape s

/-- The literal that denotes `value`. -/
def quote (value : String) : String :=
  String.ofList ('"' :: escape value.toList ++ ['"'])

end Stencil.Text
