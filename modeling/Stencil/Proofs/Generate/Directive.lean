import Stencil.Proofs.Generate.Located
import Stencil.Proofs.Markup.Onset

/-!
# Line directives

A line directive stands before the text of a pattern and names a line of the document. It is the
line of the `<` that opens the pattern, as are all lines that are known of elements. The text itself
begins later: as many lines further on as there are newlines in the opening tag and in what is
passed over before the first character.

## Main results

* `Joined.directive_of_parse`: the line in a directive, and that on which the text begins
-/

namespace Stencil

open Markup

/-- The number of newlines before a place further on is the same if there is none in between. -/
theorem count_append_eq_iff (before gap : List Char) :
    1 + before.count '\n' = 1 + (before ++ gap).count '\n' ↔ '\n' ∉ gap := by
  rw [List.count_append, ← List.count_eq_zero]
  omega

namespace Joined

variable {text : String} {root : Element}

/-- **The line in a directive.** If a document has a pattern of the name with text, the text of the
first such pattern is joined, and the directive before it names the line of the `<` that opens the
pattern. The first character of the text stands in the document after the opening tag and what says
nothing there, and it stands on the line that the directive names exactly if there is no newline
between that `<` and it. -/
theorem directive_of_parse (file wanted : String) (parsed : Element.parse text = .ok root)
    (noMark : markOf text.toList = []) :
    (∀ e ∈ root.elementsNamed "pattern", e.attribute? "name" = some wanted → e.text? = none) ∧
        (ofDocument file root wanted true).text = "" ∨
      ∃ e ∈ root.elementsNamed "pattern", ∃ value, e.attribute? "name" = some wanted ∧
        e.text? = some value ∧
        (ofDocument file root wanted true).text =
          Pattern.lineDirective file e.line ++ value ++ "\n\n" ∧
        ∃ o, ((e.tag, some value), o) ∈ root.leads.zip (openings text.toList) ∧
          e.line = 1 + o.before.count '\n' ∧
          ∀ c ∈ value.toList.head?, ∃ gap rest, text.toList = o.before ++ (gap ++ rest) ∧
            onset? (gap ++ rest) = some gap ∧ Begins rest c ∧
            (e.line = 1 + (o.before ++ gap).count '\n' ↔ '\n' ∉ gap) := by
  have isText := Pattern.text_collect file wanted true (root.elementsNamed "pattern")
  cases found : Pattern.first? wanted (root.elementsNamed "pattern") with
  | none =>
    rw [found] at isText
    refine .inl ⟨fun e member named => ?_, isText⟩
    have passed := List.find?_eq_none.mp found e member
    simpa [named] using passed
  | some e =>
    rw [found] at isText
    have member := List.mem_of_find?_eq_some found
    have wantedText := List.find?_some found
    simp only [Bool.and_eq_true, decide_eq_true_eq, Option.isSome_iff_exists] at wantedText
    obtain ⟨named, value, hasText⟩ := wantedText
    -- The pattern is an element of the tree, so its text is that which follows its tag.
    have isLead := Element.mem_leads (List.mem_of_mem_filter member)
    rw [hasText] at isLead
    obtain ⟨o, inZip, stands, begins⟩ :=
      exists_mem_zip_of_forall₂ (Element.forall₂_onsets parsed) isLead
    have isLine : e.line = 1 + o.before.count '\n' := stands.line_of_no_mark noMark
    refine .inr ⟨e, member, value, named, hasText, ?_, o, inZip, isLine, fun c isFirst => ?_⟩
    · rw [ofDocument, isText]
      simp only [hasText]
      rfl
    · obtain ⟨gap, rest, isPlace, isOnset, beginsRest⟩ := begins value rfl c isFirst
      rw [noMark, List.nil_append] at isPlace
      refine ⟨gap, rest, isPlace, isOnset, beginsRest, ?_⟩
      rw [isLine]
      exact count_append_eq_iff o.before gap

/-- The pattern stands on one line: the directive names the line on which the text begins. -/
theorem directive_of_parse_oneLine :
    ∃ root, Element.parse "<p>\n<pattern name=\"a\">f</pattern></p>" = .ok root ∧
      markOf "<p>\n<pattern name=\"a\">f</pattern></p>".toList = [] ∧
      (ofDocument "p.xml" root "a" true).text = "#line 2 \"p.xml\"\nf\n\n" ∧
      ∃ before gap rest, "<p>\n<pattern name=\"a\">f</pattern></p>".toList =
          before ++ (gap ++ rest) ∧
        onset? (gap ++ rest) = some gap ∧ Begins rest 'f' ∧
        (2 = 1 + (before ++ gap).count '\n' ↔ '\n' ∉ gap) := by
  have parsed : Element.parse "<p>\n<pattern name=\"a\">f</pattern></p>" =
      .ok ⟨⟨"p", [], 1⟩,
        [.text "\n" 1, .element ⟨"pattern", [("name", "a")], 2⟩ [.text "f" 2]]⟩ := by
    decide +kernel
  rcases directive_of_parse "p.xml" "a" parsed (by decide) with
    ⟨noText, -⟩ | ⟨e, member, value, -, hasText, isText, o, -, isLine, begins⟩
  · have none := noText ⟨⟨"pattern", [("name", "a")], 2⟩, [.text "f" 2]⟩ List.mem_cons_self rfl
    exact absurd none (Option.some_ne_none "f")
  · obtain rfl : e = ⟨⟨"pattern", [("name", "a")], 2⟩, [.text "f" 2]⟩ :=
      List.mem_singleton.mp member
    obtain rfl : value = "f" := (Option.some.inj hasText).symm
    obtain ⟨gap, rest, isPlace, isOnset, beginsRest, isSame⟩ := begins 'f' rfl
    exact ⟨_, parsed, by decide, isText, o.before, gap, rest, isPlace, isOnset, beginsRest, isSame⟩

/-- The opening tag takes two lines: the directive names the first one, and the text begins on the
second one. -/
theorem directive_ne_of_twoLines :
    ∃ root, Element.parse "<p><pattern\nname=\"a\">f</pattern></p>" = .ok root ∧
      markOf "<p><pattern\nname=\"a\">f</pattern></p>".toList = [] ∧
      (ofDocument "p.xml" root "a" true).text = "#line 1 \"p.xml\"\nf\n\n" ∧
      onset? "<pattern\nname=\"a\">f</pattern></p>".toList =
        some "<pattern\nname=\"a\">".toList ∧
      1 + ("<p>".toList ++ "<pattern\nname=\"a\">".toList).count '\n' = 2 := by
  have parsed : Element.parse "<p><pattern\nname=\"a\">f</pattern></p>" =
      .ok ⟨⟨"p", [], 1⟩, [.element ⟨"pattern", [("name", "a")], 1⟩ [.text "f" 2]]⟩ := by
    decide +kernel
  exact ⟨_, parsed, by decide, by decide, by decide +kernel, by decide⟩

end Joined

end Stencil
