import Mathlib.Data.List.Infix
import Stencil.Diagnostic.Problem
import Stencil.Markup.Element

/-!
# Accounts of problems

Where the first of a name wins, what is wrong with an element hangs on the elements before it, and
on nothing after it. What is reported of elements is then told by what is said of each, together
with those before it.

## Main definitions

* `withEarlier`: each entry of a list, with the entries before it
* `Markup.Element.reports`: problems with an element, reported on its line

## Main results

* `withEarlier_concat`: a last entry comes after all others
-/

namespace Stencil

variable {α : Type}

/-- Each entry of a list, with the entries before it. -/
def withEarlier (l : List α) : List (List α × α) := l.inits.zip l

@[simp] theorem withEarlier_nil : withEarlier ([] : List α) = [] := rfl

theorem withEarlier_cons (a : α) (l : List α) :
    withEarlier (a :: l) = ([], a) :: (withEarlier l).map (Prod.map (a :: ·) id) := by
  rw [withEarlier, List.inits_cons, List.zip_cons_cons, List.zip_map_left, withEarlier]

theorem withEarlier_concat (l : List α) (a : α) :
    withEarlier (l ++ [a]) = withEarlier l ++ [(l, a)] := by
  induction l with
  | nil => rfl
  | cons b l ih =>
    rw [List.cons_append, withEarlier_cons, withEarlier_cons, ih, List.map_append,
      List.cons_append]
    rfl

/-- Problems with an element, reported on its line. -/
def Markup.Element.reports (file : String) (e : Element) (problems : List Problem) : Diagnostics :=
  problems.map (·.reportAt file e.line)

end Stencil
