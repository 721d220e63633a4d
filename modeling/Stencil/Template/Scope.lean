import Stencil.Table.Basic

/-!
# Scopes

Where text goes and what it may refer to is decided by the directives around it. A scope holds
their decisions: the streams that are written, the rows that are bound, and what is written between
the rows of an expansion. Scopes are values; a directive derives a scope for its contents, and its
siblings keep theirs.

## Main definitions

* `Target`, `Streams`: which streams are written, and what is in them
* `Scope`: the decisions in force at a place of a template
* `Scope.write`: writes text to the streams of a scope
-/

namespace Stencil

/-- The texts generated so far. -/
structure Streams where
  header : String := ""
  source : String := ""
deriving Repr, DecidableEq

/-- The streams that are written: at least one of them. -/
inductive Target where
  | both
  | headerOnly
  | sourceOnly
deriving Repr, DecidableEq

namespace Target

/-- Whether the header is written. -/
def writesHeader : Target → Bool
  | both | headerOnly => true
  | sourceOnly => false

/-- Whether the source is written. -/
def writesSource : Target → Bool
  | both | sourceOnly => true
  | headerOnly => false

end Target

/-- A row in scope, with the name of the table it comes from. -/
structure Binding where
  table : String
  row : Row
deriving Repr, DecidableEq

/-- The decisions in force at a place of a template: the streams written, the variables bound,
the innermost one first, and the text between the rows of an expansion. -/
structure Scope where
  target : Target := .both
  bindings : List (String × Binding) := []
  separator : String := ""
deriving Repr, DecidableEq

namespace Scope

/-- The scope with another target. -/
def withTarget (scope : Scope) (target : Target) : Scope := { scope with target }

/-- The scope in which only the source is written. -/
def onlySource (scope : Scope) : Scope := scope.withTarget .sourceOnly

/-- The scope in which only the header is written. -/
def onlyHeader (scope : Scope) : Scope := scope.withTarget .headerOnly

/-- The scope with another text between rows. -/
def withSeparator (scope : Scope) (separator : String) : Scope := { scope with separator }

/-- The scope in which a variable stands for a row of a table, whatever it stood for before. -/
def bind (scope : Scope) (name table : String) (row : Row) : Scope :=
  { scope with bindings := (name, ⟨table, row⟩) :: scope.bindings }

/-- What a variable stands for. -/
def lookup (scope : Scope) (name : String) : Option Binding := scope.bindings.lookup name

@[simp] theorem lookup_withTarget (scope : Scope) (target : Target) (name : String) :
    (scope.withTarget target).lookup name = scope.lookup name := rfl

@[simp] theorem lookup_onlySource (scope : Scope) (name : String) :
    scope.onlySource.lookup name = scope.lookup name := rfl

@[simp] theorem lookup_onlyHeader (scope : Scope) (name : String) :
    scope.onlyHeader.lookup name = scope.lookup name := rfl

@[simp] theorem lookup_withSeparator (scope : Scope) (separator name : String) :
    (scope.withSeparator separator).lookup name = scope.lookup name := rfl

theorem lookup_bind (scope : Scope) (bound table name : String) (row : Row) :
    (scope.bind bound table row).lookup name =
      if bound = name then some ⟨table, row⟩ else scope.lookup name := by
  by_cases same : bound = name
  · simp [bind, lookup, same]
  · simp [bind, lookup, List.lookup_cons, beq_false_of_ne (Ne.symm same), same]

/-- Adds text to the streams that the scope writes. -/
def write (scope : Scope) (text : String) (out : Streams) : Streams where
  header := if scope.target.writesHeader then out.header ++ text else out.header
  source := if scope.target.writesSource then out.source ++ text else out.source

end Scope

end Stencil
