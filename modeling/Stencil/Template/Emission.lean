import Stencil.Diagnostic.Basic
import Stencil.Template.Scope

/-!
# Emissions

Expanding a piece of a template adds text to the streams and tells of problems. Such a step is an
emission, and longer ones are put together from shorter ones: whatever is expanded, the result is
made of writing, reporting and doing one thing after another.

## Main definitions

* `Emission`: a step that adds to the streams and reports problems
* `Emission.andThen`, `Emission.intersperse`: one emission after another
-/

namespace Stencil

/-- A step that adds text to the streams and reports problems. -/
abbrev Emission := Streams → Streams × Diagnostics

namespace Emission

/-- Does nothing. -/
def nothing : Emission := fun out => (out, [])

/-- Writes text to the streams of a scope. -/
def write (scope : Scope) (text : String) : Emission := fun out => (scope.write text out, [])

/-- Reports a problem. -/
def report (problem : Diagnostic) : Emission := fun out => (out, [problem])

/-- One emission after another. -/
def andThen (first second : Emission) : Emission := fun out =>
  let (out, problems) := first out
  let (out, others) := second out
  (out, problems ++ others)

/-- Emissions in order, with another one between neighbours. -/
def intersperse (between : Emission) : List Emission → Emission
  | [] => nothing
  | [last] => last
  | first :: rest => first.andThen (between.andThen (intersperse between rest))

end Emission

end Stencil
