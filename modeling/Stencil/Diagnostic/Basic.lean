/-!
# Diagnostics

Whatever is wrong with an input is reported as a diagnostic and work goes on: a single run tells of
every problem it meets, in the order in which it meets them. Only errors make a run fail; warnings
are for the reader.

## Main definitions

* `Diagnostic`: a located problem in an input
* `Diagnostics`: problems in the order they were met
-/

namespace Stencil

/-- How serious a problem is. -/
inductive Severity where
  | error
  | warning
deriving Repr, DecidableEq

/-- The word for a severity. -/
def Severity.name : Severity → String
  | .error => "error"
  | .warning => "warning"

/-- The kinds of problems. -/
inductive ProblemKind where
  | missingAttribute
  | missingText
  | missingElement
  | unknownTable
  | unboundVariable
  | unknownColumn
  | invalidDirective
  | unknownTransform
  | duplicateDefinition
  | loadFailure
  | invalidData
deriving Repr, DecidableEq

namespace ProblemKind

/-- All kinds of problems. -/
def all : List ProblemKind :=
  [missingAttribute, missingText, missingElement, unknownTable, unboundVariable, unknownColumn,
   invalidDirective, unknownTransform, duplicateDefinition, loadFailure, invalidData]

/-- The identifier of a kind, as reports for machines have it. -/
def name : ProblemKind → String
  | missingAttribute => "missing_attribute"
  | missingText => "missing_text"
  | missingElement => "missing_element"
  | unknownTable => "unknown_table"
  | unboundVariable => "unbound_variable"
  | unknownColumn => "unknown_column"
  | invalidDirective => "invalid_directive"
  | unknownTransform => "unknown_transform"
  | duplicateDefinition => "duplicate_definition"
  | loadFailure => "load_failure"
  | invalidData => "invalid_data"

/-- A kind in words. -/
def description : ProblemKind → String
  | missingAttribute => "missing attribute"
  | missingText => "missing text"
  | missingElement => "missing element"
  | unknownTable => "unknown table"
  | unboundVariable => "unbound variable"
  | unknownColumn => "unknown column"
  | invalidDirective => "invalid directive"
  | unknownTransform => "unknown transform"
  | duplicateDefinition => "duplicate definition"
  | loadFailure => "failed to load document"
  | invalidData => "invalid data"

/-- The kind with a given identifier. -/
def ofName? (name : String) : Option ProblemKind :=
  all.find? (·.name = name)

end ProblemKind

/-- A problem in an input: where it is, as far as that is known, and what it is. -/
structure Diagnostic where
  severity : Severity
  kind : ProblemKind
  file : String
  line : Option Nat
  message : String
deriving Repr, DecidableEq

namespace Diagnostic

/-- Whether the problem makes a run fail. -/
def isError (d : Diagnostic) : Bool := d.severity = .error

/-- The place of a problem, as `file(line)`; an unknown line is written `-1`. -/
def location (d : Diagnostic) : String :=
  match d.line with
  | some line => s!"{d.file}({line})"
  | none => s!"{d.file}(-1)"

/-- A problem on one line, as compilers write them. -/
def display (d : Diagnostic) : String :=
  d.location ++ ": " ++ d.severity.name ++ ": " ++ d.message

end Diagnostic

/-- Problems in the order in which they were met. -/
abbrev Diagnostics := List Diagnostic

namespace Diagnostics

/-- The number of errors. -/
def errorCount (ds : Diagnostics) : Nat := ds.countP Diagnostic.isError

/-- The number of warnings. -/
def warningCount (ds : Diagnostics) : Nat := ds.countP (!·.isError)

/-- Whether a run with these problems succeeds: none of them is an error. -/
def isSuccess (ds : Diagnostics) : Bool := ds.all (!·.isError)

/-- The problems of one kind. -/
def ofKind (ds : Diagnostics) (kind : ProblemKind) : Diagnostics := ds.filter (·.kind = kind)

theorem isSuccess_iff {ds : Diagnostics} : ds.isSuccess = true ↔ ds.errorCount = 0 := by
  simp [isSuccess, errorCount, List.countP_eq_zero]

@[simp] theorem isSuccess_nil : isSuccess [] = true := rfl

@[simp] theorem isSuccess_cons (d : Diagnostic) (ds : Diagnostics) :
    isSuccess (d :: ds) = (!d.isError && ds.isSuccess) := rfl

theorem isSuccess_append (ds es : Diagnostics) :
    isSuccess (ds ++ es) = (ds.isSuccess && es.isSuccess) := by
  simp [isSuccess]

/-- Every problem is counted once. -/
theorem errorCount_add_warningCount (ds : Diagnostics) :
    ds.errorCount + ds.warningCount = ds.length := by
  simp only [errorCount, warningCount]
  exact (List.length_eq_countP_add_countP Diagnostic.isError (l := ds)).symm ▸ by
    congr 1
    simp

end Diagnostics

end Stencil
