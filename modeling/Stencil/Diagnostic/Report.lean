import Stencil.Diagnostic.Terminal
import Stencil.Json.Writer

/-!
# Reports

A run's problems are reported in one of two formats: as lines for a terminal, or as a JSON document
for machines, which also tells whether the run succeeded.
-/

namespace Stencil

/-- A problem as a JSON object. -/
def Diagnostic.toJson (d : Diagnostic) : Json :=
  .object [("severity", .string d.severity.name), ("kind", .string d.kind.name),
    ("file", .string d.file),
    ("line", match d.line with
      | some line => .number (.integer line)
      | none => .null),
    ("message", .string d.message)]

/-- Problems as a JSON report. -/
def Diagnostics.toJson (ds : Diagnostics) : Json :=
  .object [("success", .bool ds.isSuccess), ("errors", .number (.integer ds.errorCount)),
    ("warnings", .number (.integer ds.warningCount)),
    ("diagnostics", .array (ds.map Diagnostic.toJson))]

/-- Problems as the text of a JSON report, which ends its last line. -/
def Diagnostics.json (ds : Diagnostics) (style : Json.Style) : String :=
  ds.toJson.render style ++ "\n"

/-- The format of a report. -/
inductive ReportFormat where
  | terminal
  | json
deriving Repr, DecidableEq

namespace ReportFormat

/-- The name of a format. -/
def name : ReportFormat → String
  | terminal => "terminal"
  | json => "json"

/-- The format with a given name. -/
def ofName? : String → Option ReportFormat
  | "terminal" => some terminal
  | "json" => some json
  | _ => none

/-- The format that a user names, in any case. No letter beyond ASCII has a lower case that occurs
in the name of a format, except the sign for kelvin, whose letter does not. -/
def read? (text : String) : Option ReportFormat := ofName? (text.map Char.toLower)

/-- The message for a name that no format has. -/
def unknownMessage (text : String) : String := "Unknown diagnostic format: " ++ text

end ReportFormat

/-- The report of a run's problems. -/
def Diagnostics.report (ds : Diagnostics) : ReportFormat → String
  | .terminal => ds.terminal .plain true
  | .json => ds.json .pretty

end Stencil
