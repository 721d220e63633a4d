import Stencil.Diagnostic.Basic

/-!
# Diagnostics on a terminal

Each problem takes a line as compilers write it, and a last line counts errors and warnings; if
there are no problems nothing is written. On a terminal with colours the severity stands out.
-/

namespace Stencil

/-- Whether and how the severity stands out. -/
inductive Highlight where
  | plain
  | color
deriving Repr, DecidableEq

/-- The control sequence that resets all attributes of a terminal. -/
def resetSequence : String := "\x1b[0m"

/-- The control sequences for bold text in the colour of a severity. -/
def Severity.colorSequence : Severity → String
  | .error => resetSequence ++ "\x1b[1m\x1b[31m"
  | .warning => resetSequence ++ "\x1b[1m\x1b[33m"

/-- The word for a severity, standing out or not. -/
def Severity.highlighted (s : Severity) : Highlight → String
  | .plain => s.name
  | .color => s.colorSequence ++ s.name ++ resetSequence

/-- A problem on a line of its own. -/
def Diagnostic.terminalLine (highlight : Highlight) (d : Diagnostic) : String :=
  d.location ++ ": " ++ d.severity.highlighted highlight ++ ": " ++ d.message ++ "\n"

namespace Diagnostics

/-- The line that counts errors and warnings. -/
def summaryLine (ds : Diagnostics) : String :=
  s!"{ds.errorCount} error(s), {ds.warningCount} warning(s)\n"

/-- Problems as a terminal shows them, with or without the count. -/
def terminal (ds : Diagnostics) (highlight : Highlight) (summary : Bool) : String :=
  if ds.isEmpty then ""
  else
    String.join (ds.map (Diagnostic.terminalLine highlight)) ++
      if summary then ds.summaryLine else ""

end Diagnostics

end Stencil
