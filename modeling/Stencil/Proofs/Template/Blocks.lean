import Stencil.Proofs.Template.Reports

/-!
# Arrays and enumerations

Two directives put brackets around their contents. An enumeration stands in the header; an array is
declared there and defined in the source. Both set the streams themselves, so it does not matter
which streams the scope around them writes. Their contents may set the streams again, though, and
what they write to the other one then stands beside the brackets: after the declaration of an array,
and wherever the source has got to in the case of an enumeration.

## Main results

* `Action.fill_array_parts`, `Action.fill_enumeration_parts`: the parts of what the two yield
* `Template.yieldNode_withTarget`: the streams written around them do not matter
* `Template.expandNode_blocks`: both of it, for the expansion of an element
-/

namespace Stencil

open Markup

namespace Action

variable {file : String} {line : Nat} {scope : Scope}

/-- The parts of what an enumeration yields. Its brackets go to the header alone. -/
theorem fill_enumeration_parts (name : String) (contents : Scope → Generated) :
    (enumeration name).fill file line scope contents =
      { header := Template.enumerationStart name ++ (contents scope.onlyHeader).header ++
          Template.blockEnd
        source := (contents scope.onlyHeader).source
        diagnostics := (contents scope.onlyHeader).diagnostics } := by
  rw [fill_enumeration, Scope.written_onlyHeader, Scope.written_onlyHeader]
  ext1
  · simp [String.append_assoc]
  · simp
  · simp

/-- The parts of what an array yields. The separator goes to the source alone, so the contents of
the rows follow one another in the header without it. -/
theorem fill_array_parts (name : String) (table : Table) (binder : String)
    (contents : Scope → Generated) (items : Row → Generated)
    (each : ∀ row, contents ((scope.onlySource.withSeparator Template.itemSeparator).bind binder
      table.name row) = items row) :
    (array name table binder).fill file line scope contents =
      { header := Template.arrayDeclaration name table.rows.length ++
          String.join (table.rows.map fun row => (items row).header)
        source := Template.arrayStart name table.rows.length ++
          Template.itemSeparator.intercalate (table.rows.map fun row => (items row).source) ++
            Template.blockEnd
        diagnostics := table.rows.flatMap fun row => (items row).diagnostics } := by
  simp only [fill_array, each, before, Scope.written_onlyHeader, Scope.written_onlySource]
  ext1
  · rw [Generated.header_append, Generated.header_append, Generated.header_append,
      Generated.header_intersperse rfl, List.map_map]
    simp [Function.comp_def]
  · rw [Generated.source_append, Generated.source_append, Generated.source_append,
      Generated.source_intersperse, List.map_map]
    simp [Function.comp_def, String.append_assoc]
  · rw [Generated.diagnostics_append, Generated.diagnostics_append, Generated.diagnostics_append,
      Generated.diagnostics_intersperse rfl, List.flatMap_map]
    simp

end Action

namespace Template

variable {tag : Tag}

/-- The streams written around an array or an enumeration do not matter. -/
theorem yieldNode_withTarget (file : String) (store : Store) (scope : Scope) (body : List Node)
    (isBlock : tag.name = "expand_data" ∨ tag.name = "enum") (target : Target) :
    yieldNode file store (scope.withTarget target) (.element tag body) =
      yieldNode file store scope (.element tag body) := by
  have samePlan : plan store (scope.withTarget target) tag = plan store scope tag :=
    plan_withTarget scope target
  cases planned : plan store scope tag with
  | error problem =>
    rw [yieldNode_of_lacking planned, yieldNode_of_lacking (samePlan.trans planned)]
  | ok action =>
    rw [yieldNode_of_planned planned, yieldNode_of_planned (samePlan.trans planned)]
    -- Both actions begin by setting the streams; no other action is that of a block.
    cases plan_eq_ok_iff.mp planned with
    | enum directive named => rfl
    | expandData directive named reads stored binds =>
      rw [Action.fill_array, Action.fill_array]
      rfl
    | source directive | header directive | expand directive | var directive =>
      have isOther := Directive.ofTag?_eq_some_iff.mp directive
      rw [isOther] at isBlock
      simp [Directive.tag] at isBlock

/-- **Arrays and enumerations.** An array declares as many items as the table has rows, in the
header, and defines as many in the source: what its contents write there for each row in order, with
the source as the only stream, separated by commas. What they write to the header in spite of that
follows the declaration. An enumeration has its contents in the header, as the only stream, between
its brackets, and adds nothing else to the source than they do. None of that depends on the streams
that the scope around the element writes. -/
theorem expandNode_blocks (file : String) (store : Store) (scope : Scope) (tag : Tag)
    (body : List Node) :
    (∀ name tableName table binder, tag.name = "expand_data" →
      tag.attribute? "name" = some name → tag.attribute? "table" = some tableName →
      store.get? tableName = some table → tag.attribute? "var" = some binder →
      ∃ items : Row → Generated,
        (∀ row, (expand file store
          ((scope.onlySource.withSeparator ", ").bind binder table.name row) body).Emits
            (items row)) ∧
        (expandNode file store scope (.element tag body)).Emits
          { header := s!"extern {name}[{table.rows.length}];\n" ++
              String.join (table.rows.map fun row => (items row).header)
            source := s!"{name}[{table.rows.length}] = " ++ "\x7b\n" ++
              ", ".intercalate (table.rows.map fun row => (items row).source) ++ "\n\x7d;\n"
            diagnostics := table.rows.flatMap fun row => (items row).diagnostics }) ∧
    (∀ name, tag.name = "enum" → tag.attribute? "name" = some name →
      ∃ items : Generated,
        (expand file store scope.onlyHeader body).Emits items ∧
        (expandNode file store scope (.element tag body)).Emits
          { header := "enum class " ++ name ++ "\x7b" ++ items.header ++ "\n\x7d;\n"
            source := items.source
            diagnostics := items.diagnostics }) ∧
    (tag.name = "expand_data" ∨ tag.name = "enum" → ∀ target,
      expandNode file store (scope.withTarget target) (.element tag body) =
        expandNode file store scope (.element tag body)) := by
  have added := emits_expandNode file store scope (.element tag body)
  refine ⟨?array, ?enumeration, ?target⟩
  case array =>
    intro name tableName table binder isArray named reads stored binds
    have directive : Directive.ofTag? tag.name = some .expandData :=
      Directive.ofTag?_eq_some_iff.mpr isArray
    have planned : plan store scope tag = .ok (.array name table binder) :=
      plan_eq_ok_iff.mpr (.expandData directive named reads stored binds)
    refine ⟨fun row => yield file store _ body, fun row => emits_expand file store _ body, ?_⟩
    rw [yieldNode_of_planned planned, Action.fill_array_parts _ _ _ _ _ fun row => rfl] at added
    exact added
  case enumeration =>
    intro name isEnumeration named
    have directive : Directive.ofTag? tag.name = some .enum :=
      Directive.ofTag?_eq_some_iff.mpr isEnumeration
    have planned : plan store scope tag = .ok (.enumeration name) :=
      plan_eq_ok_iff.mpr (.enum directive named)
    refine ⟨_, emits_expand file store scope.onlyHeader body, ?_⟩
    rw [yieldNode_of_planned planned, Action.fill_enumeration_parts] at added
    exact added
  case target =>
    intro isBlock target
    funext out
    rw [added out, emits_expandNode file store _ _ out,
      yieldNode_withTarget file store scope body isBlock target]

end Template

namespace Sample

/-- Items for an array of the colours: the name, and for the header the value of the colour. -/
def entries : List Node :=
  [.element ⟨"var", [("name", "d"), ("col", "name"), ("transform", "string")], 10⟩ [],
   .element ⟨"header", [], 11⟩ [.element ⟨"var", [("name", "d"), ("col", "hex")], 11⟩ []]]

/-- An enumeration. -/
def enumeration : Tag := ⟨"enum", [("name", "Color")], 9⟩

/-- Items for an enumeration that also write to the source. -/
def members : List Node := [.text "Red" 10, .element ⟨"source", [], 11⟩ [.text "// Red" 11]]

end Sample

namespace Template

theorem expandNode_blocks_colors :
    (∃ items : Row → Generated,
      (expandNode "a.xml" Sample.store Sample.wide
        (.element Sample.arrayOfColors Sample.entries)).Emits
          { header := "extern n[2];\n" ++ String.join
              (Sample.colorTable.rows.map fun row => (items row).header)
            source := "n[2] = " ++ "\x7b\n" ++ ", ".intercalate
              (Sample.colorTable.rows.map fun row => (items row).source) ++ "\n\x7d;\n"
            diagnostics := Sample.colorTable.rows.flatMap fun row => (items row).diagnostics }) ∧
    (∃ items : Generated,
      (expandNode "a.xml" Sample.store Sample.narrow
        (.element Sample.enumeration Sample.members)).Emits
          { header := "enum class " ++ "Color" ++ "\x7b" ++ items.header ++ "\n\x7d;\n"
            source := items.source
            diagnostics := items.diagnostics }) ∧
    expandNode "a.xml" Sample.store (Sample.wide.withTarget .headerOnly)
        (.element Sample.arrayOfColors Sample.entries) =
      expandNode "a.xml" Sample.store Sample.wide
        (.element Sample.arrayOfColors Sample.entries) := by
  have stored : Sample.store.get? "Color" = some Sample.colorTable := rfl
  have ofArray := expandNode_blocks "a.xml" Sample.store Sample.wide Sample.arrayOfColors
    Sample.entries
  have ofEnumeration := expandNode_blocks "a.xml" Sample.store Sample.narrow Sample.enumeration
    Sample.members
  obtain ⟨items, -, array⟩ := ofArray.1 "n" "Color" Sample.colorTable "d" rfl rfl rfl stored rfl
  obtain ⟨members, -, enumeration⟩ := ofEnumeration.2.1 "Color" rfl rfl
  exact ⟨⟨items, array⟩, ⟨members, enumeration⟩, ofArray.2.2 (.inl rfl) .headerOnly⟩

example :
    expandNode "a.xml" Sample.store Sample.wide (.element Sample.arrayOfColors Sample.entries) {} =
      (⟨"extern n[2];\nFF0000000000", "n[2] = \x7b\n\"Red\", \"Blue\"\n\x7d;\n"⟩, []) := by
  decide +kernel

end Template

end Stencil
