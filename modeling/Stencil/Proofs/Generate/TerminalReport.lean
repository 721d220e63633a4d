import Mathlib.Data.List.TakeWhile
import Stencil.Diagnostic.Terminal
import Stencil.Proofs.Generate.Quoted
import Stencil.Text.Split

/-!
# Lines of a report on a terminal

A report on a terminal is meant to have one line for each problem, and a line of counts after these.
It has as many lines for a problem as its message has, for a message is written as it is, and a
message has more than one if it quotes a value with a newline. Of all that stands in a document only
values of attributes can have newlines and be quoted: names end at blanks.

## Main definitions

* `Diagnostics.counts`: the line of counts
* `Diagnostics.HasLineEach`: the report has one line for each problem and one more

## Main results

* `Diagnostics.splitAt_terminal`: the lines of a report
* `Markup.Element.exists_attribute_of_newline`: only values of attributes can have newlines
* `Generated.terminal_of_parse`: the lines of the report on a document
-/

namespace Stencil

open Markup Text

/-! ### Lines of a report -/

namespace Diagnostic

variable (d : Diagnostic)

theorem terminalLine_plain : d.terminalLine .plain = d.display ++ "\n" := rfl

/-- Besides the name of the file and the message, what is displayed is on one line. -/
theorem newline_mem_display_iff :
    '\n' ∈ d.display.toList ↔ '\n' ∈ d.file.toList ∨ '\n' ∈ d.message.toList := by
  obtain ⟨severity, kind, file, line, message⟩ := d
  cases severity <;> cases line <;>
    simp [display, location, Severity.name, toString_string, newline_not_mem_toDigits]

end Diagnostic

namespace Diagnostics

variable {ds : Diagnostics} {file : String}

/-- The numbers of errors and of warnings in words. -/
def counts (ds : Diagnostics) : String :=
  s!"{ds.errorCount} error(s), {ds.warningCount} warning(s)"

theorem summaryLine_eq (ds : Diagnostics) : ds.summaryLine = ds.counts ++ "\n" := by
  simp [summaryLine, counts, toString_string, String.append_assoc]

theorem newline_not_mem_counts (ds : Diagnostics) : '\n' ∉ ds.counts.toList := by
  simp [counts, toString_string, newline_not_mem_toDigits]

/-- The report has one line for each problem, in order, and then the line of counts; it is empty if
there are no problems. -/
def HasLineEach (ds : Diagnostics) : Prop :=
  splitAt '\n' (ds.terminal .plain true).toList =
    if ds = [] then [[]] else ds.map (·.display.toList) ++ [ds.counts.toList, []]

/-- A report has the lines of its problems, in order, and then the line of counts. -/
theorem splitAt_terminal (some : ds ≠ []) :
    splitAt '\n' (ds.terminal .plain true).toList =
      (ds.flatMap fun d => splitAt '\n' d.display.toList) ++ [ds.counts.toList, []] := by
  have isReport : (ds.terminal .plain true).toList =
      (ds.flatMap fun d => d.display.toList ++ ['\n']) ++ (ds.counts.toList ++ ['\n']) := by
    simp [terminal, some, summaryLine_eq, Diagnostic.terminalLine_plain, String.toList_join,
      List.flatMap_map]
  rw [isReport, splitAt_flatMap_append, splitAt_append_cons,
    splitAt_of_not_mem ds.newline_not_mem_counts]
  rfl

/-- Each problem has one line exactly if no message has a newline. -/
theorem hasLineEach_iff (named : ∀ d ∈ ds, '\n' ∉ d.file.toList) :
    ds.HasLineEach ↔ ∀ d ∈ ds, '\n' ∉ d.message.toList := by
  unfold HasLineEach
  by_cases none : ds = []
  · subst none
    exact iff_of_true rfl (List.forall_mem_nil _)
  rw [if_neg none, splitAt_terminal none]
  constructor
  · intro lineEach d member inMessage
    -- What is displayed is one of the parts, and no part has a newline.
    have isPart : d.display.toList ∈ splitAt '\n' (ds.terminal .plain true).toList := by
      rw [splitAt_terminal none, lineEach]
      exact List.mem_append_left _ (List.mem_map_of_mem member)
    apply not_mem_of_mem_splitAt isPart
    exact d.newline_mem_display_iff.mpr (.inr inMessage)
  · intro oneLine
    rw [List.map_eq_flatMap]
    refine congrArg (· ++ _) (List.flatMap_congr fun d member => ?_)
    refine splitAt_of_not_mem fun inDisplay => ?_
    exact (d.newline_mem_display_iff.mp inDisplay).elim (named d member) (oneLine d member)

end Diagnostics

/-! ### Names in a tag -/

namespace Markup

/-- The key of an attribute ends before the next blank. -/
theorem Attribute.newline_not_mem_key {length : Nat} {earlier : List Attribute}
    {s rest : List Char} {first : Attribute}
    (found : Attribute.next? length earlier s = .ok (some (first, rest))) : '\n' ∉ first.key := by
  unfold next? at found
  split at found
  · cases found
  · rename_i c afterFirst isRest
    have notBlank : isSpace c = false := by
      have isHead : (s.dropWhile isSpace).head? = some c := by rw [isRest]; rfl
      simpa [isHead] using List.head?_dropWhile_not isSpace s
    obtain ⟨afterKey, -, found⟩ := bind_eq_ok_iff.mp found
    split at found
    · cases found
    · obtain ⟨⟨raw, afterValue⟩, -, done⟩ := bind_eq_ok_iff.mp found
      cases done
      intro member
      rcases List.mem_cons.mp member with rfl | inKey
      · exact absurd notBlank (by decide)
      · exact absurd (List.mem_takeWhile_imp inKey) (by decide)

namespace Tag

theorem newline_not_mem_of_readAttributes (element : String) (line length : Nat)
    (earlier : List Attribute) (s : List Char) :
    ∀ attributes, readAttributes element line length earlier s = .ok attributes →
      ∀ a ∈ attributes, '\n' ∉ a.1.toList := by
  -- Reading stops at the end of the tag or fails, or it goes on behind one more attribute.
  fun_induction readAttributes element line length earlier s with
  | case1 earlier s cause failed =>
    intro attributes read
    cases read
  | case2 earlier s ended =>
    intro attributes read
    cases read
    exact List.forall_mem_nil _
  | case3 earlier s first rest found key cause failed =>
    intro attributes read
    cases read
  | case4 earlier s first rest found key value decoded ih =>
    intro attributes read
    obtain ⟨others, readOthers, done⟩ := bind_eq_ok_iff.mp read
    cases done
    refine List.forall_mem_cons.mpr ⟨?_, ih others readOthers⟩
    simpa [key] using Attribute.newline_not_mem_key found

/-- In a tag that was read, newlines stand in values of attributes only. -/
theorem exists_attribute_of_newline {line : Nat} {content : List Char} {tag : Tag} {word : String}
    (read : Tag.read line content = .ok tag) (isWord : word ∈ tag.words)
    (newline : '\n' ∈ word.toList) : ∃ a ∈ tag.attributes, word = a.2 := by
  obtain ⟨attributes, readAttributes, done⟩ := bind_eq_ok_iff.mp read
  cases done
  rcases List.mem_cons.mp isWord with rfl | inAttributes
  · rw [String.toList_ofList] at newline
    exact absurd (List.mem_takeWhile_imp newline) (by decide)
  · obtain ⟨a, member, inPair⟩ := List.mem_flatMap.mp inAttributes
    rcases List.mem_pair.mp inPair with rfl | rfl
    · exact absurd newline (newline_not_mem_of_readAttributes _ _ _ _ _ _ readAttributes a member)
    · exact ⟨a, member, rfl⟩

end Tag

/-- In a tree that was read, newlines in the words of tags stand in values of attributes only. -/
theorem Element.exists_attribute_of_newline {text : String} {root : Element} {tag : Tag}
    {word : String} (parsed : Element.parse text = .ok root) (isTag : tag ∈ root.tags)
    (isWord : word ∈ tag.words) (newline : '\n' ∈ word.toList) :
    ∃ a ∈ tag.attributes, word = a.2 := by
  obtain ⟨o, -, stands⟩ := exists_mem_zip_of_forall₂ (forall₂_openings parsed) isTag
  exact Tag.exists_attribute_of_newline stands.read isWord newline

end Markup

/-! ### The report on a document -/

namespace Generated

variable {file text : String} {root : Element} {d : Diagnostic}

/-- A message with a newline quotes the value of an attribute that has one. -/
theorem exists_value_of_newline (parsed : Element.parse text = .ok root)
    (reported : d ∈ (ofDocument file root).diagnostics) (newline : '\n' ∈ d.message.toList) :
    ∃ problem : Problem, ∃ tag ∈ root.tags, ∃ origin ∈ root.tags, ∃ a ∈ origin.attributes,
      d = problem.reportAt file tag.line ∧ a.2 ∈ problem.quoted ∧ '\n' ∈ a.2.toList := by
  obtain ⟨problem, tag, isTag, rfl, quotes⟩ := about_ofDocument file root d reported
  obtain ⟨word, quoted, inWord⟩ := problem.newline_mem_message_iff.mp newline
  rcases quotes word quoted with isKey | ⟨origin, isOrigin, isWord⟩
  · have noneInKeys : ∀ key ∈ Template.requiredKeys, '\n' ∉ key.toList := by decide
    exact absurd inWord (noneInKeys word isKey)
  · obtain ⟨a, isAttribute, rfl⟩ :=
      Element.exists_attribute_of_newline parsed isOrigin isWord inWord
    exact ⟨problem, tag, isTag, origin, isOrigin, a, isAttribute, rfl, quoted, inWord⟩

/-- **The report on a document.** The report is empty if there are no problems; otherwise it has the
lines of each problem, in order, and then the line of counts. There is one line for each problem
exactly if no message has a newline, and a message has one only if it quotes the value of an
attribute that has one: no other text of a document can part a line. -/
theorem terminal_of_parse (parsed : Element.parse text = .ok root) (named : '\n' ∉ file.toList) :
    let ds := (ofDocument file root).diagnostics
    (ds = [] → ds.terminal .plain true = "") ∧
      (ds ≠ [] → splitAt '\n' (ds.terminal .plain true).toList =
        (ds.flatMap fun d => splitAt '\n' d.display.toList) ++ [ds.counts.toList, []]) ∧
      (ds.HasLineEach ↔ ∀ d ∈ ds, '\n' ∉ d.message.toList) ∧
      (∀ d ∈ ds, '\n' ∈ d.message.toList →
        ∃ problem : Problem, ∃ tag ∈ root.tags, ∃ origin ∈ root.tags, ∃ a ∈ origin.attributes,
          d = problem.reportAt file tag.line ∧ a.2 ∈ problem.quoted ∧ '\n' ∈ a.2.toList) ∧
      ((∀ tag ∈ root.tags, ∀ a ∈ tag.attributes, '\n' ∉ a.2.toList) → ds.HasLineEach) := by
  intro ds
  have sameFile : ∀ d ∈ ds, '\n' ∉ d.file.toList := by
    intro d reported
    obtain ⟨problem, tag, -, rfl, -⟩ := about_ofDocument file root d reported
    exact named
  have quoted (d : Diagnostic) (reported : d ∈ ds) (newline : '\n' ∈ d.message.toList) :=
    exists_value_of_newline parsed reported newline
  refine ⟨fun none => ?_, Diagnostics.splitAt_terminal, Diagnostics.hasLineEach_iff sameFile,
    quoted, fun noneInValues => ?_⟩
  · rw [none]
    rfl
  · apply (Diagnostics.hasLineEach_iff sameFile).mpr
    intro d reported newline
    obtain ⟨-, -, -, origin, isOrigin, a, isAttribute, -, -, inValue⟩ := quoted d reported newline
    exact noneInValues origin isOrigin a isAttribute inValue

/-- The report on a document without tables, in which a tag is no directive, has three lines. -/
theorem terminal_of_parse_lacking :
    ∃ root, Element.parse "<r>\n<gen><x/></gen></r>" = .ok root ∧
      splitAt '\n' ((ofDocument "d.xml" root).diagnostics.terminal .plain true).toList =
        ["d.xml(1): error: Missing tables element".toList,
          "d.xml(2): error: Invalid element `x`".toList, "2 error(s), 0 warning(s)".toList,
          []] := by
  have parsed : Element.parse "<r>\n<gen><x/></gen></r>" = .ok ⟨⟨"r", [], 1⟩,
      [.text "\n" 1, .element ⟨"gen", [], 2⟩ [.element ⟨"x", [], 2⟩ []]]⟩ := by decide +kernel
  have reported : (ofDocument "d.xml" ⟨⟨"r", [], 1⟩,
      [.text "\n" 1, .element ⟨"gen", [], 2⟩ [.element ⟨"x", [], 2⟩ []]]⟩).diagnostics =
        [Problem.noTables.reportAt "d.xml" 1, (Problem.unknownDirective "x").reportAt "d.xml" 2] :=
    rfl
  obtain ⟨-, -, -, -, lineEach⟩ := terminal_of_parse parsed
    (show '\n' ∉ "d.xml".toList by decide)
  rw [reported] at lineEach
  refine ⟨_, parsed, ?_⟩
  rw [reported]
  exact (lineEach (by decide)).trans (by decide +kernel)

/-- The name of a variable that nothing binds is a newline: the line of the problem is parted. -/
theorem terminal_of_parted_line :
    ∃ root, Element.parse "<r><tables/><gen><var name=\"\n\"/></gen></r>" = .ok root ∧
      (ofDocument "d.xml" root).diagnostics.length = 1 ∧
      splitAt '\n' ((ofDocument "d.xml" root).diagnostics.terminal .plain true).toList =
        ["d.xml(1): error: `".toList, "` is not an expanded table variable".toList,
          "1 error(s), 0 warning(s)".toList, []] ∧
      ¬ (ofDocument "d.xml" root).diagnostics.HasLineEach := by
  have parsed : Element.parse "<r><tables/><gen><var name=\"\n\"/></gen></r>" =
      .ok ⟨⟨"r", [], 1⟩, [.element ⟨"tables", [], 1⟩ [], .element ⟨"gen", [], 1⟩
        [.element ⟨"var", [("name", "\n")], 1⟩ []]]⟩ := by decide +kernel
  have reported : (ofDocument "d.xml" ⟨⟨"r", [], 1⟩, [.element ⟨"tables", [], 1⟩ [],
      .element ⟨"gen", [], 1⟩ [.element ⟨"var", [("name", "\n")], 1⟩ []]]⟩).diagnostics =
        [(Problem.notBound "\n").reportAt "d.xml" 1] := rfl
  refine ⟨_, parsed, ?_⟩
  rw [reported]
  refine ⟨rfl, ?_, fun lineEach => ?_⟩
  · rw [Diagnostics.splitAt_terminal (List.cons_ne_nil _ _)]
    decide +kernel
  · refine (Diagnostics.hasLineEach_iff (by decide)).mp lineEach _ List.mem_cons_self ?_
    exact (Problem.newline_mem_message_iff _).mpr ⟨_, List.mem_cons_self, by decide⟩

end Generated

end Stencil
