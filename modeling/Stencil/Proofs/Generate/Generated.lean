import Mathlib.Data.List.Forall2
import Stencil.Generate

/-!
# The algebra of results

Results of generating are put together one after another. The empty result is neutral, and putting
together is associative. This file also has the ways in which later files compare results: part by
part, with problems that correspond to each other, and with the errors of one of them left out.

## Main definitions

* `Generated.intersperse`: results in order, with another one between neighbours
* `Generated.Agree`: results that agree in the parts asked for
* `Generated.Matches`: results with the same texts, and problems that correspond to each other
* `Generated.withoutErrors`: a result of which only the warnings are reported

## Main results

* `Agree.append`, `Agree.intersperse`: agreement is kept by putting together
* `Matches.append`, `Matches.intersperse`: so is matching
* `withoutErrors_append`, `withoutErrors_intersperse`: leaving errors out commutes with it
* `header_intersperse`, `source_intersperse`: the texts of a result put together
* `success_append`, `success_intersperse`: a result put together succeeds if all its pieces do
-/

namespace Stencil

attribute [ext] Generated

namespace Generated

variable {α : Type} {g h k g' h' between between' : Generated} {l : List α} {f f' : α → Generated}

@[simp] theorem header_append (g h : Generated) : (g ++ h).header = g.header ++ h.header := rfl

@[simp] theorem source_append (g h : Generated) : (g ++ h).source = g.source ++ h.source := rfl

@[simp] theorem diagnostics_append (g h : Generated) :
    (g ++ h).diagnostics = g.diagnostics ++ h.diagnostics := rfl

@[simp] theorem append_empty (g : Generated) : g ++ ({} : Generated) = g := by
  ext1 <;> simp

@[simp] theorem empty_append (g : Generated) : ({} : Generated) ++ g = g := by
  ext1 <;> simp

theorem append_assoc (g h k : Generated) : g ++ h ++ k = g ++ (h ++ k) := by
  ext1 <;> simp [String.append_assoc]

/-- A result that reports one problem and writes nothing. -/
def ofProblem (problem : Diagnostic) : Generated := { diagnostics := [problem] }

/-- Results in order, with another one between neighbours. -/
def intersperse (between : Generated) : List Generated → Generated
  | [] => {}
  | [last] => last
  | first :: rest => first ++ (between ++ intersperse between rest)

@[simp] theorem intersperse_nil : intersperse between [] = {} := rfl

@[simp] theorem intersperse_singleton : intersperse between [g] = g := rfl

@[simp] theorem intersperse_cons_cons {l : List Generated} :
    intersperse between (g :: h :: l) = g ++ (between ++ intersperse between (h :: l)) := rfl

/-- What commutes with putting two results together commutes with putting several together. -/
theorem map_intersperse {φ : Generated → Generated} (empty : φ {} = {})
    (append : ∀ g h, φ (g ++ h) = φ g ++ φ h) (between : Generated) (l : List Generated) :
    φ (intersperse between l) = intersperse (φ between) (l.map φ) := by
  induction l with
  | nil => exact empty
  | cons g l ih =>
    cases l with
    | nil => rfl
    | cons h l =>
      rw [intersperse_cons_cons, append, append, ih]
      rfl

/-- What is reported by results in order is reported by one after the other, if nothing is reported
in between. -/
theorem diagnostics_intersperse (silent : between.diagnostics = []) (l : List Generated) :
    (intersperse between l).diagnostics = l.flatMap (·.diagnostics) := by
  induction l with
  | nil => rfl
  | cons g l ih =>
    cases l with
    | nil => simp
    | cons h l =>
      rw [intersperse_cons_cons, diagnostics_append, diagnostics_append, silent, ih]
      rfl

/-- The header of results in order is made of their headers, if what is in between does not write
there. -/
theorem header_intersperse (silent : between.header = "") (l : List Generated) :
    (intersperse between l).header = String.join (l.map (·.header)) := by
  induction l with
  | nil => rfl
  | cons g l ih =>
    cases l with
    | nil => simp
    | cons h l =>
      rw [intersperse_cons_cons, header_append, header_append, silent, ih]
      simp

/-- The source of results in order is made of their sources, separated by what is in between. -/
theorem source_intersperse (between : Generated) (l : List Generated) :
    (intersperse between l).source = between.source.intercalate (l.map (·.source)) := by
  induction l with
  | nil => simp
  | cons g l ih =>
    cases l with
    | nil => simp
    | cons h l =>
      rw [intersperse_cons_cons, source_append, source_append, ih]
      simp [String.append_assoc]

/-! ### Agreement part by part -/

/-- Two results agree in the header if `inHeader` holds, in the source if `inSource` holds, and in
the problems reported if `inDiagnostics` holds. -/
structure Agree (inHeader inSource inDiagnostics : Prop) (g h : Generated) : Prop where
  header : inHeader → g.header = h.header
  source : inSource → g.source = h.source
  diagnostics : inDiagnostics → g.diagnostics = h.diagnostics

namespace Agree

variable {inHeader inSource inDiagnostics inDiagnostics' : Prop}

@[refl] theorem refl (g : Generated) : Agree inHeader inSource inDiagnostics g g :=
  ⟨fun _ => rfl, fun _ => rfl, fun _ => rfl⟩

/-- Agreement in the problems may be asked for less often. -/
theorem mono (agree : Agree inHeader inSource inDiagnostics g h)
    (weaker : inDiagnostics' → inDiagnostics) : Agree inHeader inSource inDiagnostics' g h :=
  ⟨agree.header, agree.source, fun asked => agree.diagnostics (weaker asked)⟩

theorem append (first : Agree inHeader inSource inDiagnostics g g')
    (second : Agree inHeader inSource inDiagnostics h h') :
    Agree inHeader inSource inDiagnostics (g ++ h) (g' ++ h') where
  header asked := by simp [first.header asked, second.header asked]
  source asked := by simp [first.source asked, second.source asked]
  diagnostics asked := by simp [first.diagnostics asked, second.diagnostics asked]

theorem intersperse (agreeBetween : Agree inHeader inSource inDiagnostics between between')
    (agree : ∀ a ∈ l, Agree inHeader inSource inDiagnostics (f a) (f' a)) :
    Agree inHeader inSource inDiagnostics (Generated.intersperse between (l.map f))
      (Generated.intersperse between' (l.map f')) := by
  induction l with
  | nil => exact refl _
  | cons a l ih =>
    have first := agree a List.mem_cons_self
    have rest := ih fun b member => agree b (List.mem_cons_of_mem a member)
    cases l with
    | nil => exact first
    | cons b l => exact first.append (agreeBetween.append rest)

/-- A problem reported by one of two results matters to their problems only. -/
theorem ofProblem_append (problem : Diagnostic) (agree : Agree inHeader inSource False g h) :
    Agree inHeader inSource False (ofProblem problem ++ g) h where
  header asked := by simpa [ofProblem] using agree.header asked
  source asked := by simpa [ofProblem] using agree.source asked
  diagnostics asked := asked.elim

end Agree

/-! ### Problems that correspond to each other -/

/-- Two results have the same texts, and report as many problems, which `R` relates one for one. -/
structure Matches (R : Diagnostic → Diagnostic → Prop) (g h : Generated) : Prop where
  header : g.header = h.header
  source : g.source = h.source
  diagnostics : List.Forall₂ R g.diagnostics h.diagnostics

namespace Matches

variable {R : Diagnostic → Diagnostic → Prop} {l l' : List Generated}

theorem refl (related : ∀ d, R d d) (g : Generated) : Matches R g g :=
  ⟨rfl, rfl, List.forall₂_same.mpr fun d _ => related d⟩

/-- Results that agree in all parts match. -/
theorem of_agree (related : ∀ d, R d d) (agree : Agree True True True g h) : Matches R g h := by
  refine ⟨agree.header trivial, agree.source trivial, ?_⟩
  rw [agree.diagnostics trivial]
  exact List.forall₂_same.mpr fun d _ => related d

theorem ofProblem {d d' : Diagnostic} (related : R d d') :
    Matches R (ofProblem d) (ofProblem d') :=
  ⟨rfl, rfl, .cons related .nil⟩

theorem append (first : Matches R g g') (second : Matches R h h') : Matches R (g ++ h) (g' ++ h')
    where
  header := by simp [first.header, second.header]
  source := by simp [first.source, second.source]
  diagnostics := List.rel_append first.diagnostics second.diagnostics

theorem intersperse (matchBetween : Matches R between between')
    (each : List.Forall₂ (Matches R) l l') :
    Matches R (Generated.intersperse between l) (Generated.intersperse between' l') := by
  induction each with
  | nil => exact ⟨rfl, rfl, .nil⟩
  | cons first others ih =>
    cases others with
    | nil => exact first
    | cons second others => exact first.append (matchBetween.append ih)

end Matches

/-! ### Leaving errors out -/

/-- The result of which only the warnings are reported. -/
def withoutErrors (g : Generated) : Generated :=
  { g with diagnostics := g.diagnostics.filter (!·.isError) }

theorem success_withoutErrors (g : Generated) : g.withoutErrors.success = true := by
  simp [withoutErrors, success, Diagnostics.isSuccess]

theorem diagnostics_withoutErrors (g : Generated) :
    g.withoutErrors.diagnostics = g.diagnostics.filter (·.severity = .warning) := by
  refine List.filter_congr fun d _ => ?_
  cases severity : d.severity <;> simp [Diagnostic.isError, severity]

@[simp] theorem withoutErrors_empty : ({} : Generated).withoutErrors = {} := rfl

@[simp] theorem withoutErrors_append (g h : Generated) :
    (g ++ h).withoutErrors = g.withoutErrors ++ h.withoutErrors := by
  ext1 <;> simp [withoutErrors]

theorem withoutErrors_intersperse (between : Generated) (l : List Generated) :
    (intersperse between l).withoutErrors =
      intersperse between.withoutErrors (l.map withoutErrors) :=
  map_intersperse withoutErrors_empty withoutErrors_append between l

/-- A result without errors loses nothing. -/
theorem withoutErrors_of_success (success : g.success = true) : g.withoutErrors = g := by
  have noError : ∀ d ∈ g.diagnostics, (!d.isError) = true :=
    List.all_eq_true.mp success
  simp only [withoutErrors, List.filter_eq_self.mpr noError]

/-! ### Success -/

@[simp] theorem success_empty : ({} : Generated).success = true := rfl

@[simp] theorem success_append (g h : Generated) : (g ++ h).success = (g.success && h.success) :=
  Diagnostics.isSuccess_append g.diagnostics h.diagnostics

theorem success_intersperse (successBetween : between.success = true) {l : List Generated} :
    (intersperse between l).success = true ↔ ∀ g ∈ l, g.success = true := by
  induction l with
  | nil => simp
  | cons g l ih =>
    cases l with
    | nil => simp
    | cons h l => simp_all

end Generated

end Stencil
