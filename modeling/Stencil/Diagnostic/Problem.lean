import Stencil.Diagnostic.Basic

/-!
# What can be wrong with an input

Every problem has one constructor here, with what its message has to tell. The kind, the severity
and the wording of a problem follow from the constructor.
-/

namespace Stencil

/-- What can be wrong with an input document. -/
inductive Problem where
  /-- The document has no section of tables. -/
  | noTables
  /-- The document has no section to expand. -/
  | noTemplate
  /-- A column declaration has no name. -/
  | namelessColumn (table : String)
  /-- A column was declared before, on `line`. -/
  | columnRedeclared (column table : String) (line : Nat)
  /-- A table was defined before, on `line`. -/
  | tableRedefined (table : String) (line : Nat)
  /-- A row gives a value for a column that its table does not have. -/
  | valueIgnored (column table : String)
  /-- A template element is no directive. -/
  | unknownDirective (tag : String)
  /-- An element lacks an attribute that it needs. -/
  | attributeMissing (key tag : String)
  /-- No table has this name. -/
  | noSuchTable (table : String)
  /-- No enclosing expansion binds this variable. -/
  | notBound (name : String)
  /-- The table bound to a variable has no such column. -/
  | noSuchColumn (column name table : String)
  /-- No transform has this name. -/
  | noSuchTransform (name : String)
  /-- A pattern does not begin with text. -/
  | textMissing (pattern : String)
  /-- A pattern was found before, on `line`. -/
  | patternRepeated (pattern : String) (line : Nat)
  /-- A document cannot be read or is none. -/
  | unloadable (cause : String)
  /-- An array holds an element that has no text form. -/
  | elementDropped (key : String)
  /-- An object holds a member that has no text form. -/
  | memberDropped (key : String)
deriving Repr, DecidableEq

namespace Problem

/-- The kind of a problem. -/
def kind : Problem → ProblemKind
  | noTables | noTemplate => .missingElement
  | namelessColumn _ | attributeMissing _ _ => .missingAttribute
  | columnRedeclared _ _ _ | tableRedefined _ _ | patternRepeated _ _ => .duplicateDefinition
  | valueIgnored _ _ | noSuchColumn _ _ _ => .unknownColumn
  | unknownDirective _ => .invalidDirective
  | noSuchTable _ => .unknownTable
  | notBound _ => .unboundVariable
  | noSuchTransform _ => .unknownTransform
  | textMissing _ => .missingText
  | unloadable _ => .loadFailure
  | elementDropped _ | memberDropped _ => .invalidData

/-- The severity of a problem: where a plain reading remains, it is a warning. -/
def severity : Problem → Severity
  | valueIgnored _ _ | noSuchTransform _ | elementDropped _ | memberDropped _ => .warning
  | _ => .error

/-- The wording of a problem. -/
def message : Problem → String
  | noTables => "Missing tables element"
  | noTemplate => "Missing gen element"
  | namelessColumn table => s!"Missing name on column of table `{table}`"
  | columnRedeclared column table line =>
    s!"Column `{column}` of table `{table}` is already declared on line {line}"
  | tableRedefined table line => s!"Table `{table}` is already defined on line {line}"
  | valueIgnored column table => s!"`{column}` is not a column in table `{table}`, value ignored"
  | unknownDirective tag => s!"Invalid element `{tag}`"
  | attributeMissing key tag => s!"Missing `{key}` attribute on <{tag}>"
  | noSuchTable table => s!"Failed to find table `{table}`"
  | notBound name => s!"`{name}` is not an expanded table variable"
  | noSuchColumn column name table =>
    s!"`{column}` is not a column in `{name}` (table `{table}`)"
  | noSuchTransform name => s!"Unknown transform `{name}`"
  | textMissing pattern => s!"Pattern `{pattern}` has no text"
  | patternRepeated pattern line =>
    s!"Found duplicate pattern named `{pattern}`, previous one is on line {line}"
  | unloadable cause => s!"Failed to load file: {cause}"
  | elementDropped key => s!"Unsupported array element type for key `{key}`"
  | memberDropped key => s!"Unsupported JSON value type for key `{key}`"

/-- The report of a problem at a place. -/
def report (p : Problem) (file : String) (line : Option Nat) : Diagnostic :=
  ⟨p.severity, p.kind, file, line, p.message⟩

/-- The report of a problem on a known line. -/
def reportAt (p : Problem) (file : String) (line : Nat) : Diagnostic :=
  p.report file (some line)

@[simp] theorem isError_report (p : Problem) (file : String) (line : Option Nat) :
    (p.report file line).isError = (p.severity = .error : Bool) := rfl

@[simp] theorem isError_reportAt (p : Problem) (file : String) (line : Nat) :
    (p.reportAt file line).isError = (p.severity = .error : Bool) := rfl

end Problem

end Stencil
