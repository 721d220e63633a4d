import Stencil.Files.Fault
import Stencil.Markup.Document

/-!
# Loading documents from files
-/

namespace Stencil.Markup

/-- Why a document cannot be loaded from a file. -/
inductive LoadFault where
  | unreadable (path : String) (fault : FileFault)
  | malformed (path : String) (fault : DocumentFault)
deriving Repr, DecidableEq

/-- The wording of a fault, which names the file. -/
def LoadFault.message : LoadFault → String
  | unreadable path fault => s!"Failed to read {path}: {fault.message}"
  | malformed path fault => s!"Failed to parse {path}: {fault.message}"

/-- The root element of the document in a file. -/
def Element.load (read : FileReader) (path : String) : Except LoadFault Element :=
  match read path with
  | .error fault => .error (.unreadable path fault)
  | .ok text =>
    match Element.parse text with
    | .error fault => .error (.malformed path fault)
    | .ok root => .ok root

end Stencil.Markup
