import Stencil.Proofs.Generate.Quoted
import Stencil.Proofs.Pattern

/-!
# Where problems are located

Whatever is reported of a document, in loading its tables, in expanding its template or in joining
its patterns, is located on the line of an opening tag of the document; so is the text that a line
directive stands before. How good a location is hangs on the lines of the tags alone, and those are
exact unless the text of the document begins with a byte order mark.

## Main definitions

* `Diagnostics.OnLinesOf`: every problem is located on the line of one of the tags

## Main results

* `Generated.onLinesOf_ofDocument`, `Joined.onLinesOf_ofDocument`: where problems are located
* `Joined.text_ofDocument`: which line a directive names
* `Markup.Element.lines_of_parse`: lines in the tree, and what is located on them
-/

namespace Stencil

open Markup

/-- Every problem is located on the line of one of the tags. -/
def Diagnostics.OnLinesOf (tags : List Tag) (ds : Diagnostics) : Prop :=
  ∀ d ∈ ds, ∃ tag ∈ tags, d.line = some tag.line

/-! ### Generating -/

/-- Whatever generating reports of a document is located on the line of one of its tags. -/
theorem Generated.onLinesOf_ofDocument (file : String) (root : Element) :
    (ofDocument file root).diagnostics.OnLinesOf root.tags := by
  intro d reported
  obtain ⟨problem, tag, isTag, rfl, -⟩ := Generated.about_ofDocument file root d reported
  exact ⟨tag, isTag, rfl⟩

/-! ### Joining patterns -/

namespace Pattern

variable {file wanted : String} {lineDirectives : Bool} {es : List Element}

theorem onLinesOf_collect {tags : List Tag} (inTags : ∀ e ∈ es, e.tag ∈ tags) :
    (collect file wanted lineDirectives none es).diagnostics.OnLinesOf tags := by
  rw [diagnostics_collect]
  intro d reported
  -- What is reported of a pattern is on its own line, whatever the patterns before it are.
  obtain ⟨⟨earlier, e⟩, isPattern, ofPattern⟩ := List.mem_flatMap.mp reported
  obtain ⟨problem, -, rfl⟩ := List.mem_map.mp ofPattern
  exact ⟨e.tag, inTags e (List.of_mem_zip isPattern).2, rfl⟩

end Pattern

namespace Joined

variable (file wanted : String) (lineDirectives : Bool) (root : Element)

/-- Whatever joining reports of a document is located on the line of one of its tags. -/
theorem onLinesOf_ofDocument :
    (ofDocument file root wanted lineDirectives).diagnostics.OnLinesOf root.tags :=
  Pattern.onLinesOf_collect fun _ member => Element.tag_mem_tags_of_mem_elementsNamed member

/-- What a document contributes is the text of a pattern, and the directive before it names the line
of the pattern's tag. -/
theorem text_ofDocument :
    (ofDocument file root wanted lineDirectives).text = "" ∨
      ∃ tag ∈ root.tags, ∃ value,
        (ofDocument file root wanted lineDirectives).text =
          Pattern.block file lineDirectives tag.line value := by
  have isText := Pattern.text_collect file wanted lineDirectives (root.elementsNamed "pattern")
  cases found : Pattern.first? wanted (root.elementsNamed "pattern") with
  | none =>
    rw [found] at isText
    exact .inl isText
  | some e =>
    rw [found] at isText
    have member := List.mem_of_find?_eq_some found
    exact .inr ⟨e.tag, Element.tag_mem_tags_of_mem_elementsNamed member, _, isText⟩

end Joined

/-! ### Lines of a document that was read -/

namespace Markup

/-- **Lines in a tree.** The opening tags of a tree that is read from a text are those of the text,
in the same order. If the text does not begin with a byte order mark, the line of each is one more
than the number of newlines before its `<`; if it does, only those newlines are counted that end at
least as many bytes before the `<` as the mark takes. Every problem that is reported of the tree is
located on the line of one of its tags, and so is the text that a line directive stands before. -/
theorem Element.lines_of_parse {text : String} {root : Element}
    (parsed : Element.parse text = .ok root) :
    List.Forall₂ (Tag.StandsAt text.toList) root.tags (openings text.toList) ∧
      (markOf text.toList = [] →
        List.Forall₂ (fun tag o => tag.line = 1 + o.before.count '\n') root.tags
          (openings text.toList)) ∧
      (∀ file, (Generated.ofDocument file root).diagnostics.OnLinesOf root.tags) ∧
      ∀ file wanted lineDirectives,
        (Joined.ofDocument file root wanted lineDirectives).diagnostics.OnLinesOf root.tags ∧
          ((Joined.ofDocument file root wanted lineDirectives).text = "" ∨
            ∃ tag ∈ root.tags, ∃ value,
              (Joined.ofDocument file root wanted lineDirectives).text =
                Pattern.block file lineDirectives tag.line value) := by
  have places := forall₂_openings parsed
  refine ⟨places, fun noMark => ?_, fun file => Generated.onLinesOf_ofDocument file root, ?_⟩
  · exact places.imp fun tag o stands => stands.line_of_no_mark noMark
  · intro file wanted lineDirectives
    exact ⟨Joined.onLinesOf_ofDocument file wanted lineDirectives root,
      Joined.text_ofDocument file wanted lineDirectives root⟩

/-- In a text of three lines without a mark, each tag has its own line. -/
theorem Element.lines_of_parse_nested :
    ∃ root, Element.parse "<a>\n<b/>\n<b></b></a>" = .ok root ∧
      openings "<a>\n<b/>\n<b></b></a>".toList =
        [⟨[], ['a']⟩, ⟨['<', 'a', '>', '\n'], ['b']⟩,
          ⟨['<', 'a', '>', '\n', '<', 'b', '/', '>', '\n'], ['b']⟩] ∧
      List.Forall₂ (fun tag o => tag.line = 1 + o.before.count '\n') root.tags
        (openings "<a>\n<b/>\n<b></b></a>".toList) := by
  have parsed : Element.parse "<a>\n<b/>\n<b></b></a>" = .ok ⟨⟨"a", [], 1⟩,
      [.text "\n" 1, .element ⟨"b", [], 2⟩ [], .text "\n" 2, .element ⟨"b", [], 3⟩ []]⟩ := by
    decide +kernel
  obtain ⟨-, isExact, -⟩ := Element.lines_of_parse parsed
  exact ⟨_, parsed, by decide +kernel, isExact (by decide +kernel)⟩

/-- After a byte order mark, the line of a tag need not be the one on which it stands: the newline
just before it is not counted. -/
theorem Element.line_ne_of_mark :
    ∃ root, Element.parse "\uFEFF\n<a/>" = .ok root ∧
      openings "\uFEFF\n<a/>".toList = [⟨['\n'], ['a']⟩] ∧
      ¬ List.Forall₂ (fun tag o => tag.line = 1 + o.before.count '\n') root.tags
        (openings "\uFEFF\n<a/>".toList) := by
  have parsed : Element.parse "\uFEFF\n<a/>" = .ok ⟨⟨"a", [], 1⟩, []⟩ := by decide +kernel
  have places : openings "\uFEFF\n<a/>".toList = [⟨['\n'], ['a']⟩] := by decide +kernel
  refine ⟨_, parsed, places, ?_⟩
  rw [places]
  intro same
  cases same with
  | cons first _ => exact absurd first (by decide)

end Markup

end Stencil
