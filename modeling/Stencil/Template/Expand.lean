import Stencil.Diagnostic.Problem
import Stencil.Markup.Element
import Stencil.Template.Directive
import Stencil.Template.Emission

/-!
# Expanding a template

A template is expanded against the tables of a document, node by node: text is written to the
streams in scope, and an element is carried out as a directive. A directive first looks up all it
needs, an attribute, a table, a binding, a column; if something is missing it reports that, writes
nothing, and its contents are not looked at. Its siblings are expanded in any case.

## Main definitions

* `Action`: what a directive is about to do, with all it needs at hand
* `Template.plan`: the action of an element, or what it lacks
* `Template.expand`: the emission of a list of nodes
-/

namespace Stencil

open Markup

/-- What a directive is about to do, with all it needs at hand. -/
inductive Action where
  /-- Expand the contents, writing other streams. -/
  | retarget (target : Target)
  /-- Expand the contents once per row of a table, the row bound to a variable. -/
  | repeatRows (table : Table) (name : String)
  /-- Write a value, as it is if no transform has the name `unknown`. -/
  | writeValue (value : String) (unknown : Option String)
  /-- Put the contents into an enumeration. -/
  | enumeration (name : String)
  /-- Put the contents, once per row of a table, into an array. -/
  | array (name : String) (table : Table) (binder : String)
deriving Repr, DecidableEq

namespace Template

/-- What is written between the items of an array. -/
def itemSeparator : String := ", "

/-- What stands before the items of an enumeration. -/
def enumerationStart (name : String) : String := "enum class " ++ name ++ "\x7b"

/-- What stands after the items of an enumeration or an array. -/
def blockEnd : String := "\n\x7d;\n"

/-- The declaration of an array. -/
def arrayDeclaration (name : String) (size : Nat) : String := s!"extern {name}[{size}];\n"

/-- What stands before the items of an array. -/
def arrayStart (name : String) (size : Nat) : String := s!"{name}[{size}] = " ++ "\x7b\n"

/-- An attribute that a directive cannot do without. -/
def require (tag : Tag) (key : String) : Except Problem String :=
  match tag.attribute? key with
  | some value => .ok value
  | none => .error (.attributeMissing key tag.name)

/-- The table that a directive names. -/
def requireTable (store : Store) (tag : Tag) : Except Problem Table := do
  let name ← require tag "table"
  match store.get? name with
  | some table => .ok table
  | none => .error (.noSuchTable name)

/-- The action of a `var` directive. -/
def planValue (scope : Scope) (tag : Tag) : Except Problem Action := do
  let name ← require tag "name"
  match scope.lookup name with
  | none => .error (.notBound name)
  | some binding =>
    let column ← require tag "col"
    match binding.row.get? column with
    | none => .error (.noSuchColumn column name binding.table)
    | some value =>
      match tag.attribute? "transform" with
      | none => .ok (.writeValue value none)
      | some transform =>
        match Transform.ofName? transform with
        | some known => .ok (.writeValue (known.apply value) none)
        | none => .ok (.writeValue value (some transform))

/-- The action of an element, or the first thing it lacks. -/
def plan (store : Store) (scope : Scope) (tag : Tag) : Except Problem Action :=
  match Directive.ofTag? tag.name with
  | none => .error (.unknownDirective tag.name)
  | some .source => .ok (.retarget .sourceOnly)
  | some .header => .ok (.retarget .headerOnly)
  | some .expand => do
    let table ← requireTable store tag
    let name ← require tag "var"
    return .repeatRows table name
  | some .var => planValue scope tag
  | some .enum => do
    let name ← require tag "name"
    return .enumeration name
  | some .expandData => do
    let name ← require tag "name"
    let table ← requireTable store tag
    let binder ← require tag "var"
    return .array name table binder

/-- The emission of rows: that of each row, with the scope's separator in between. -/
def emitRows (scope : Scope) (table : Table) (body : Row → Emission) : Emission :=
  .intersperse (.write scope scope.separator) (table.rows.map body)

/-- Writes a value, and reports the name of a transform that does not exist. -/
def emitValue (file : String) (scope : Scope) (line : Nat) (value : String) :
    Option String → Emission
  | none => .write scope value
  | some unknown =>
    .andThen (.report ((Problem.noSuchTransform unknown).reportAt file line)) (.write scope value)

/-- Writes an enumeration, to the header alone; `body` is the emission of its items there. -/
def emitEnumeration (scope : Scope) (name : String) (body : Scope → Emission) : Emission :=
  let scope := scope.onlyHeader
  .andThen (.write scope (enumerationStart name))
    (.andThen (body scope) (.write scope blockEnd))

/-- Writes the declaration of an array to the header and its definition to the source; `body` is
the emission of the item for a row there. -/
def emitArray (scope : Scope) (name : String) (table : Table) (body : Scope → Row → Emission) :
    Emission :=
  let size := table.rows.length
  let inside := scope.onlySource.withSeparator itemSeparator
  .andThen (.write scope.onlyHeader (arrayDeclaration name size))
    (.andThen (.write scope.onlySource (arrayStart name size))
      (.andThen (emitRows inside table (body inside)) (.write scope.onlySource blockEnd)))

mutual

/-- The emission of a node: text is written, an element carried out. -/
def expandNode (file : String) (store : Store) (scope : Scope) : Node → Emission
  | .text value _ => .write scope value
  | .element tag children =>
    match plan store scope tag with
    | .error problem => .report (problem.reportAt file tag.line)
    | .ok (.retarget target) => expand file store (scope.withTarget target) children
    | .ok (.repeatRows table name) =>
      emitRows scope table fun row =>
        expand file store (scope.bind name table.name row) children
    | .ok (.writeValue value unknown) => emitValue file scope tag.line value unknown
    | .ok (.enumeration name) =>
      emitEnumeration scope name fun inside => expand file store inside children
    | .ok (.array name table binder) =>
      emitArray scope name table fun inside row =>
        expand file store (inside.bind binder table.name row) children
termination_by structural node => node

/-- The emission of nodes in document order. -/
def expand (file : String) (store : Store) (scope : Scope) : List Node → Emission
  | [] => .nothing
  | node :: nodes =>
    .andThen (expandNode file store scope node) (expand file store scope nodes)
termination_by structural nodes => nodes

end

end Template

end Stencil
