import Stencil.Pattern
import Stencil.Proofs.Diagnostic.Account

/-!
# What becomes of patterns

Every pattern of a document is judged by itself and by the patterns before it: it has no name, or it
has no text, or it has another name than the wanted one, or it is the first valid one of that name,
or it comes after that one. The first is taken, and of the others those are reported that are wrong.
So what comes of patterns is told pattern by pattern, and nothing else in the document has a part in
it.

## Main definitions

* `Pattern.first?`: the pattern whose text is joined
* `Pattern.Verdict`, `Pattern.Falls`: what becomes of a pattern, and when
* `Pattern.seen`: what is looked at in a pattern

## Main results

* `Pattern.collect_append`: patterns are collected one after the other
* `Pattern.falls_iff`: every pattern falls under exactly one verdict
* `Pattern.text_collect`: the text that is joined
* `Joined.ofDocument_verdicts`: what comes of the patterns of a document
-/

namespace Stencil

open Markup

namespace Joined

variable (i j k : Joined)

@[simp] theorem text_append : (i ++ j).text = i.text ++ j.text := rfl

@[simp] theorem diagnostics_append : (i ++ j).diagnostics = i.diagnostics ++ j.diagnostics := rfl

@[simp] theorem report_append (problem : Diagnostic) :
    i.report problem ++ j = (i ++ j).report problem := rfl

@[simp] theorem empty_append : ({} : Joined) ++ j = j := by
  obtain ⟨text, diagnostics⟩ := j
  exact congrArg₂ mk String.empty_append rfl

@[simp] theorem append_empty : i ++ ({} : Joined) = i := by
  obtain ⟨text, diagnostics⟩ := i
  exact congrArg₂ mk String.append_empty (List.append_nil diagnostics)

theorem append_assoc : i ++ j ++ k = i ++ (j ++ k) :=
  congrArg₂ mk (String.append_assoc ..) (List.append_assoc ..)

end Joined

namespace Pattern

variable {file wanted : String} {lineDirectives : Bool} {found : Option Nat}
  {earlier es es' : List Element} {e : Element}

/-- The first pattern of a name that has text. -/
def first? (wanted : String) (es : List Element) : Option Element :=
  es.find? fun e => e.attribute? "name" = some wanted && e.text?.isSome

/-- Patterns are collected one after the other. A later one is collected in the knowledge of the
line on which a valid one was found before. -/
theorem collect_append (file wanted : String) (lineDirectives : Bool) (found : Option Nat)
    (es fs : List Element) :
    collect file wanted lineDirectives found (es ++ fs) =
      collect file wanted lineDirectives found es ++
        collect file wanted lineDirectives (found.or ((first? wanted es).map Element.line)) fs := by
  induction es generalizing found with
  | nil => simp [collect, first?]
  | cons e es ih =>
    cases named : e.attribute? "name" with
    | none => simp [collect, first?, named, ih]
    | some name =>
      cases isText : e.text? with
      | none => simp [collect, first?, named, isText, ih]
      | some text =>
        by_cases isWanted : name = wanted
        · cases found with
          | none =>
            have isFirst : first? wanted (e :: es) = some e := by
              simp [first?, named, isText, isWanted]
            simp only [List.cons_append, collect, named, isText, isWanted, if_true, ih, isFirst,
              Option.map_some, Option.some_or, Option.none_or, Joined.text_append]
            exact congrArg₂ Joined.mk (String.append_assoc ..).symm rfl
          | some line => simp [collect, named, isText, isWanted, ih]
        · simp [collect, first?, named, isText, isWanted, ih]

/-! ### The text that is joined -/

/-- Once a pattern was taken, no other is. -/
theorem text_collect_of_found (line : Nat) :
    (collect file wanted lineDirectives (some line) es).text = "" := by
  induction es with
  | nil => rfl
  | cons e es ih =>
    -- A pattern is passed over or reported, and neither adds to the text.
    cases named : e.attribute? "name" with
    | none => simpa [collect, named, Joined.report] using ih
    | some name =>
      cases isText : e.text? with
      | none => simpa [collect, named, isText, Joined.report] using ih
      | some value =>
        by_cases isWanted : name = wanted <;>
          simpa [collect, named, isText, isWanted, Joined.report] using ih

/-- The text that is joined is that of the first pattern of the name, with the directive for its
line. -/
theorem text_collect (file wanted : String) (lineDirectives : Bool) (es : List Element) :
    (collect file wanted lineDirectives none es).text =
      match first? wanted es with
      | none => ""
      | some e => block file lineDirectives e.line (e.text?.getD "") := by
  induction es with
  | nil => rfl
  | cons e es ih =>
    unfold collect
    cases named : e.attribute? "name" with
    | none => simpa [first?, List.find?_cons, named, Joined.report] using ih
    | some name =>
      cases isText : e.text? with
      | none => simpa [first?, List.find?_cons, named, isText, Joined.report] using ih
      | some value =>
        by_cases isWanted : name = wanted
        · simp [first?, named, isText, isWanted, text_collect_of_found]
        · simpa [first?, List.find?_cons, named, isText, isWanted] using ih

/-! ### What becomes of each pattern -/

/-- What becomes of a pattern. -/
inductive Verdict where
  /-- It has no name. -/
  | nameless
  /-- It has a name, but its first child is no text. -/
  | textless (name : String)
  /-- It is valid and has another name than the wanted one. -/
  | passed
  /-- It is the first valid one of the wanted name. -/
  | taken (text : String)
  /-- It is valid and has the wanted name, but the one on `line` was taken. -/
  | repeated (line : Nat)
deriving Repr, DecidableEq

/-- What is wrong with a pattern of that verdict, if `wanted` is the wanted name. -/
def Verdict.problem? (wanted : String) : Verdict → Option Problem
  | nameless => some (.attributeMissing "name" "pattern")
  | textless name => some (.textMissing name)
  | repeated line => some (.patternRepeated wanted line)
  | passed | taken _ => none

/-- When a pattern falls under a verdict, if others come before it. -/
inductive Falls (wanted : String) (earlier : List Element) (e : Element) : Verdict → Prop where
  | nameless (noName : e.attribute? "name" = none) : Falls wanted earlier e .nameless
  | textless {name : String} (named : e.attribute? "name" = some name) (noText : e.text? = none) :
    Falls wanted earlier e (.textless name)
  | passed {name text : String} (named : e.attribute? "name" = some name)
    (hasText : e.text? = some text) (isOther : name ≠ wanted) : Falls wanted earlier e .passed
  | taken {text : String} (named : e.attribute? "name" = some wanted)
    (hasText : e.text? = some text) (isFirst : first? wanted earlier = none) :
    Falls wanted earlier e (.taken text)
  | repeated {text : String} {previous : Element} (named : e.attribute? "name" = some wanted)
    (hasText : e.text? = some text) (isLater : first? wanted earlier = some previous) :
    Falls wanted earlier e (.repeated previous.line)

/-- The verdict on a pattern, if others come before it. -/
def verdict (wanted : String) (earlier : List Element) (e : Element) : Verdict :=
  match e.attribute? "name", e.text? with
  | none, _ => .nameless
  | some name, none => .textless name
  | some name, some text =>
    if name = wanted then
      match first? wanted earlier with
      | none => .taken text
      | some previous => .repeated previous.line
    else .passed

/-- Every pattern falls under exactly one verdict. -/
theorem falls_iff {v : Verdict} : Falls wanted earlier e v ↔ v = verdict wanted earlier e := by
  constructor
  · intro falls
    cases falls with
    | nameless noName => simp [verdict, noName]
    | textless named noText => simp [verdict, named, noText]
    | passed named hasText isOther => simp [verdict, named, hasText, isOther]
    | taken named hasText isFirst => simp [verdict, named, hasText, isFirst]
    | repeated named hasText isLater => simp [verdict, named, hasText, isLater]
  · rintro rfl
    cases named : e.attribute? "name" with
    | none => simpa [verdict, named] using Falls.nameless named
    | some name =>
      cases isText : e.text? with
      | none => simpa [verdict, named, isText] using Falls.textless named isText
      | some text =>
        by_cases isWanted : name = wanted
        · subst isWanted
          cases before : first? name earlier with
          | none => simpa [verdict, named, isText, before] using Falls.taken named isText before
          | some previous =>
            simpa [verdict, named, isText, before] using Falls.repeated named isText before
        · simpa [verdict, named, isText, isWanted] using Falls.passed named isText isWanted

/-- What is reported of a pattern is what its verdict says. -/
theorem diagnostics_collect_singleton {v : Verdict} (falls : Falls wanted earlier e v) :
    (collect file wanted lineDirectives
        ((first? wanted earlier).map Element.line) [e]).diagnostics =
      e.reports file (v.problem? wanted).toList := by
  cases falls with
  | nameless noName => simp [collect, Joined.report, Element.reports, Verdict.problem?, noName]
  | textless named noText =>
    simp [collect, Joined.report, Element.reports, Verdict.problem?, named, noText]
  | passed named hasText isOther =>
    simp [collect, Element.reports, Verdict.problem?, named, hasText, isOther]
  | taken named hasText isFirst =>
    simp [collect, Element.reports, Verdict.problem?, named, hasText, isFirst]
  | repeated named hasText isLater =>
    simp [collect, Joined.report, Element.reports, Verdict.problem?, named, hasText, isLater]

/-- What is reported of patterns is what the verdict on each says. -/
theorem diagnostics_collect (file wanted : String) (lineDirectives : Bool) (es : List Element) :
    (collect file wanted lineDirectives none es).diagnostics =
      (withEarlier es).flatMap fun (earlier, e) =>
        e.reports file ((verdict wanted earlier e).problem? wanted).toList := by
  -- The last pattern is judged by all others, and whether one was found is known from them.
  induction es using List.reverseRecOn with
  | nil => rfl
  | append_singleton es e ih =>
    rw [collect_append, Joined.diagnostics_append, Option.none_or,
      diagnostics_collect_singleton (falls_iff.mpr rfl), ih, withEarlier_concat,
      List.flatMap_append, List.flatMap_singleton]

/-- What is looked at in a pattern: its line, its name and its text. -/
def seen (e : Element) : Nat × Option String × Option String :=
  (e.line, e.attribute? "name", e.text?)

/-- Nothing else in patterns has a part in what comes of them. -/
theorem collect_congr (same : es.map seen = es'.map seen) :
    collect file wanted lineDirectives found es = collect file wanted lineDirectives found es' := by
  induction es generalizing es' found with
  | nil =>
    obtain rfl := List.map_eq_nil_iff.mp same.symm
    rfl
  | cons e es ih =>
    cases es' with
    | nil => cases same
    | cons e' es' =>
      simp only [List.map_cons, List.cons.injEq, seen, Prod.mk.injEq] at same
      obtain ⟨⟨sameLine, sameName, sameText⟩, others⟩ := same
      have rest {before : Option Nat} :
          collect file wanted lineDirectives before es =
            collect file wanted lineDirectives before es' := ih others
      simp only [collect, sameLine, sameName, sameText, rest]

end Pattern

/-- **What becomes of patterns.** Each `pattern` child of a document falls under exactly one
verdict, by itself and by those before it. What is reported of the document are the problems of
which these verdicts tell, in document order, each on the line of its pattern. If no valid pattern
has the wanted name, the text is empty; otherwise it is the text of the first one, after the
directive for its line if directives are asked for, and followed by an empty line. Nothing but the
line, the name and the text of each `pattern` child has a part in that. -/
theorem Joined.ofDocument_verdicts (file wanted : String) (lineDirectives : Bool) (root : Element) :
    (∀ earlier e v, Pattern.Falls wanted earlier e v ↔ v = Pattern.verdict wanted earlier e) ∧
      (ofDocument file root wanted lineDirectives).diagnostics =
        (withEarlier (root.elementsNamed "pattern")).flatMap (fun (earlier, e) =>
          e.reports file ((Pattern.verdict wanted earlier e).problem? wanted).toList) ∧
      ((∀ e ∈ root.elementsNamed "pattern", e.attribute? "name" = some wanted → e.text? = none) ∧
          (ofDocument file root wanted lineDirectives).text = "" ∨
        ∃ earlier e later value, root.elementsNamed "pattern" = earlier ++ e :: later ∧
          Pattern.Falls wanted earlier e (.taken value) ∧
          (ofDocument file root wanted lineDirectives).text =
            (if lineDirectives then Pattern.lineDirective file e.line else "") ++ value ++ "\n\n") ∧
      ∀ root' : Element,
        (root'.elementsNamed "pattern").map Pattern.seen =
            (root.elementsNamed "pattern").map Pattern.seen →
          ofDocument file root' wanted lineDirectives =
            ofDocument file root wanted lineDirectives := by
  refine ⟨fun earlier e v => Pattern.falls_iff, Pattern.diagnostics_collect .., ?_,
    fun root' same => Pattern.collect_congr same⟩
  have isText := Pattern.text_collect file wanted lineDirectives (root.elementsNamed "pattern")
  cases found : Pattern.first? wanted (root.elementsNamed "pattern") with
  | none =>
    rw [found] at isText
    refine .inl ⟨fun e member named => ?_, isText⟩
    have passed := List.find?_eq_none.mp found e member
    simpa [named] using passed
  | some e =>
    rw [found] at isText
    obtain ⟨isValid, earlier, later, isSplit, noneBefore⟩ := List.find?_eq_some_iff_append.mp found
    simp only [Bool.and_eq_true, decide_eq_true_eq, Option.isSome_iff_exists] at isValid
    obtain ⟨named, value, hasText⟩ := isValid
    simp only [hasText] at isText
    refine .inr ⟨earlier, e, later, value, isSplit, .taken named hasText ?_, isText⟩
    refine List.find?_eq_none.mpr fun other member => ?_
    have notValid := noneBefore other member
    rwa [Bool.not_eq_true', Bool.eq_false_iff] at notValid

namespace Sample

/-- A document in which valid patterns of one name come after a nameless one and one without text,
and in which patterns stand where none are looked for. -/
def patterns : Element :=
  ⟨⟨"p", [], 1⟩,
    [.element ⟨"pattern", [], 2⟩ [.text "x" 2],
     .element ⟨"pattern", [("name", "a")], 3⟩ [.element ⟨"b", [], 3⟩ [], .text "x" 3],
     .element ⟨"group", [], 4⟩ [.element ⟨"pattern", [("name", "a")], 4⟩ [.text "inner" 4]],
     .element ⟨"pattern", [("name", "c")], 5⟩ [.text "other" 5],
     .element ⟨"pattern", [("name", "a")], 6⟩ [.text "one" 6, .element ⟨"b", [], 6⟩ []],
     .element ⟨"pattern", [("name", "a")], 7⟩ [],
     .element ⟨"pattern", [("name", "a")], 8⟩ [.text "two" 8],
     .element ⟨"pattern", [("name", "a")], 9⟩ [.text "three" 9]]⟩

/-- The same patterns as far as they are looked at, and nothing else. -/
def barePatterns : Element :=
  ⟨⟨"q", [], 1⟩,
    [.element ⟨"pattern", [], 2⟩ [.text "x" 2],
     .element ⟨"pattern", [("name", "a")], 3⟩ [],
     .element ⟨"pattern", [("name", "c")], 5⟩ [.text "other" 5],
     .element ⟨"pattern", [("name", "a")], 6⟩ [.text "one" 6],
     .element ⟨"pattern", [("name", "a")], 7⟩ [],
     .element ⟨"pattern", [("name", "a")], 8⟩ [.text "two" 8],
     .element ⟨"pattern", [("name", "a")], 9⟩ [.text "three" 9]]⟩

end Sample

theorem Joined.ofDocument_verdicts_patterns :
    (ofDocument "p.xml" Sample.patterns "a" true).diagnostics =
        [(Problem.attributeMissing "name" "pattern").reportAt "p.xml" 2,
         (Problem.textMissing "a").reportAt "p.xml" 3,
         (Problem.textMissing "a").reportAt "p.xml" 7,
         (Problem.patternRepeated "a" 6).reportAt "p.xml" 8,
         (Problem.patternRepeated "a" 6).reportAt "p.xml" 9] ∧
      (Sample.barePatterns.elementsNamed "pattern").map Pattern.seen =
        (Sample.patterns.elementsNamed "pattern").map Pattern.seen ∧
      ofDocument "p.xml" Sample.barePatterns "a" true =
        ofDocument "p.xml" Sample.patterns "a" true := by
  obtain ⟨-, reported, -, congr⟩ := ofDocument_verdicts "p.xml" "a" true Sample.patterns
  have sameSeen : (Sample.barePatterns.elementsNamed "pattern").map Pattern.seen =
      (Sample.patterns.elementsNamed "pattern").map Pattern.seen := rfl
  exact ⟨reported.trans (by rfl), sameSeen, congr _ sameSeen⟩

end Stencil
