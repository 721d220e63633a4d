import Stencil.Proofs.Template.Extension

/-!
# Documents with more data

To a document whose template finds every table and column that it asks for, a column or a table can
be added without any effect on what is generated. A new column may be declared after the rows of its
table, and rows may have given values for it all along: these were reported as ignored, and no
longer are. That is all that changes.

## Main definitions

* `Markup.Element.withContents`: an element with other contents for its first child of a name

## Main results

* `Generated.exists_of_within`: a template that lacks no data yields the same from more data
* `Generated.ofDocument_extend`: a document with a column or a table more
-/

namespace Stencil

open Markup

/-! ### Other contents for a child -/

namespace Markup

/-- Nodes with other contents for the first element of a name. -/
def Node.replaceContents (name : String) (contents : List Node) : List Node → List Node
  | [] => []
  | .text value line :: nodes => .text value line :: replaceContents name contents nodes
  | .element tag children :: nodes =>
    if tag.name = name then .element tag contents :: nodes
    else .element tag children :: replaceContents name contents nodes

/-- The first of several nodes has the name, or else the first of the others that has it. -/
theorem Node.find?_filterMap_cons (name : String) (tag : Tag) (children nodes : List Node) :
    ((Node.element tag children :: nodes).filterMap Node.element?).find? (·.name = name) =
      if tag.name = name then some ⟨tag, children⟩
      else (nodes.filterMap Node.element?).find? (·.name = name) := by
  have isName : (⟨tag, children⟩ : Element).name = tag.name := rfl
  have isCons : (Node.element tag children :: nodes).filterMap Node.element? =
      ⟨tag, children⟩ :: nodes.filterMap Node.element? := rfl
  rw [isCons, List.find?_cons, isName]
  by_cases same : tag.name = name <;> simp [same]

namespace Element

/-- An element with other contents for its first child of a name. -/
def withContents (e : Element) (name : String) (contents : List Node) : Element :=
  ⟨e.tag, Node.replaceContents name contents e.children⟩

variable {e child : Element} {name other : String}

/-- The first child of the name has the new contents. -/
theorem element?_withContents (found : e.element? name = some child) (contents : List Node) :
    (e.withContents name contents).element? name = some ⟨child.tag, contents⟩ := by
  obtain ⟨tag, children⟩ := e
  simp only [element?, elements, withContents] at found ⊢
  induction children with
  | nil => cases found
  | cons node nodes ih =>
    cases node with
    | text value line => exact ih found
    | element nodeTag inner =>
      rw [Node.find?_filterMap_cons] at found
      rw [Node.replaceContents]
      by_cases same : nodeTag.name = name
      · rw [if_pos same, Option.some.injEq] at found
        subst found
        rw [if_pos same, Node.find?_filterMap_cons, if_pos same]
      · rw [if_neg same] at found
        rw [if_neg same, Node.find?_filterMap_cons, if_neg same, ih found]

/-- Children of other names stay what they are. -/
theorem element?_withContents_of_ne (isOther : other ≠ name) (contents : List Node) :
    (e.withContents name contents).element? other = e.element? other := by
  obtain ⟨tag, children⟩ := e
  simp only [element?, elements, withContents]
  induction children with
  | nil => rfl
  | cons node nodes ih =>
    cases node with
    | text value line => exact ih
    | element nodeTag inner =>
      rw [Node.replaceContents]
      by_cases same : nodeTag.name = name
      · have notIt : nodeTag.name ≠ other := by
          rw [same]
          exact isOther.symm
        rw [if_pos same, Node.find?_filterMap_cons, Node.find?_filterMap_cons, if_neg notIt,
          if_neg notIt]
      · rw [if_neg same, Node.find?_filterMap_cons, Node.find?_filterMap_cons, ih]

end Element

end Markup

namespace Generated

variable {file : String} {root root' tables : Element}

/-- From more data, a template that lacks none yields the same; only what is reported of the data
may differ. -/
theorem exists_of_within (sameTemplate : root'.element? "gen" = root.element? "gen")
    (sameLine : root'.line = root.line)
    (stores : (Store.load file root).1.Within (Store.load file root').1)
    (missNone : (ofDocument file root).diagnostics.MissNoData) :
    ∃ g : Generated,
      ofDocument file root =
          { g with diagnostics := (Store.load file root).2 ++ g.diagnostics } ∧
        ofDocument file root' =
          { g with diagnostics := (Store.load file root').2 ++ g.diagnostics } := by
  cases found : root.element? "gen" with
  | none =>
    rw [found] at sameTemplate
    refine ⟨.ofProblem (Problem.noTemplate.reportAt file root.line), ?_, ?_⟩
    · simp only [ofDocument, found, ofProblem]
    · simp only [ofDocument, sameTemplate, sameLine, ofProblem]
  | some template =>
    rw [found] at sameTemplate
    simp only [ofDocument, found] at missNone
    have same := Template.yield_eq_of_within stores (.refl {}) template.children
      missNone.of_append_right
    refine ⟨Template.yield file (Store.load file root).1 {} template.children, ?_, ?_⟩
    · simp only [ofDocument, found, Template.run_eq_yield]
    · simp only [ofDocument, sameTemplate, Template.run_eq_yield, same]

/-- What a document whose section of tables has other contents loads. -/
theorem load_withContents (hasTables : root.element? "tables" = some tables)
    (contents : List Node) :
    Store.load file (root.withContents "tables" contents) =
      Store.loadTables file .empty (contents.filterMap Node.element?) := by
  simp only [Store.load, Element.element?_withContents hasTables]
  rfl

/-- **Data that nothing asks for.** Let a document have a section of tables, and let its template
lack no table and no column. If a table gets a column under a new name, declared anywhere in its
element, then the same header and the same source are generated, and the same is reported, except
that values for that column in rows of that table are not reported as ignored any more. If the
section gets a table of a new name of which nothing is reported, then all stays the same. -/
theorem ofDocument_extend (file : String) (root tables : Element)
    (hasTables : root.element? "tables" = some tables)
    (missNone : (ofDocument file root).diagnostics.MissNoData) :
    (∀ i : ColumnInsertion, i.nodes = tables.children →
      (ofDocument file (root.withContents "tables" i.extendedNodes)).header =
          (ofDocument file root).header ∧
        (ofDocument file (root.withContents "tables" i.extendedNodes)).source =
          (ofDocument file root).source ∧
        ∃ others,
          (ofDocument file root).diagnostics =
            (Store.loadTables file .empty (i.before.filterMap Node.element?)).2 ++
              ((Table.load file i.table).2 ++ others) ∧
          (ofDocument file (root.withContents "tables" i.extendedNodes)).diagnostics =
            (Store.loadTables file .empty (i.before.filterMap Node.element?)).2 ++
              ((Table.load file i.table).2.filter (!·.reportsIgnored i.column i.table.name) ++
                others)) ∧
    ∀ i : TableInsertion, i.nodes = tables.children → (Table.load file i.table).2 = [] →
      ofDocument file (root.withContents "tables" i.extendedNodes) = ofDocument file root := by
  have sameTemplate (contents : List Node) :
      (root.withContents "tables" contents).element? "gen" = root.element? "gen" :=
    Element.element?_withContents_of_ne (by decide) contents
  have loads : Store.load file root =
      Store.loadTables file .empty (tables.children.filterMap Node.element?) := by
    simp only [Store.load, hasTables]
    rfl
  -- Either way the section gives data within which the former data is, and the rest is common.
  constructor
  · intro i isSection
    obtain ⟨others, reports, reportsExtended, stores⟩ := i.loadTables file
    rw [isSection, ← loads] at reports stores
    rw [← load_withContents hasTables] at reportsExtended stores
    obtain ⟨g, isResult, isExtended⟩ := exists_of_within (sameTemplate _) rfl stores missNone
    rw [isResult, isExtended, reports, reportsExtended]
    refine ⟨rfl, rfl, others ++ g.diagnostics, ?_, ?_⟩ <;> simp only [List.append_assoc]
  · intro i isSection silent
    obtain ⟨reports, stores⟩ := i.loadTables file silent
    rw [isSection, ← loads, ← load_withContents hasTables] at reports stores
    obtain ⟨g, isResult, isExtended⟩ := exists_of_within (sameTemplate _) rfl stores missNone
    rw [isResult, isExtended, reports]

end Generated

namespace Sample

/-- An element that declares a column and has a row with a value for another one. -/
def units : ColumnInsertion where
  before := [.element ⟨"Color", [], 3⟩ []]
  tag := ⟨"Unit", [], 4⟩
  above :=
    [.element ⟨"col", [("name", "sign")], 5⟩ [],
     .element ⟨"row", [("sign", "px"), ("scale", "2"), ("depth", "1")], 6⟩ []]
  col := ⟨⟨"col", [("name", "scale"), ("default", "1")], 7⟩, []⟩
  column := "scale"
  below := []
  after := []
  isCol := rfl
  named := rfl
  isNew := by decide

/-- The same section, and a table between its two. -/
def lengths : TableInsertion where
  before := [.element ⟨"Color", [], 3⟩ []]
  table := ⟨⟨"Length", [], 8⟩, [.element ⟨"row", [], 9⟩ []]⟩
  after := [units.table.toNode]
  isNew := by decide

/-- A document with the section, whose template writes the column that is declared, and refers to a
variable that is not bound. -/
def measures : Element :=
  ⟨⟨"root", [], 1⟩,
    [.element ⟨"tables", [], 2⟩ units.nodes,
     .element ⟨"gen", [], 10⟩
      [.element ⟨"expand", [("table", "Unit"), ("var", "u")], 11⟩
        [.element ⟨"var", [("name", "u"), ("col", "sign")], 12⟩ [],
         .element ⟨"var", [("name", "v"), ("col", "scale")], 13⟩ []]]]⟩

end Sample

theorem Generated.ofDocument_extend_measures :
    (Sample.measures.element? "tables" = some ⟨⟨"tables", [], 2⟩, Sample.units.nodes⟩ ∧
        (ofDocument "a.xml" Sample.measures).diagnostics.MissNoData) ∧
      (ofDocument "a.xml"
          (Sample.measures.withContents "tables" Sample.units.extendedNodes)).source =
        (ofDocument "a.xml" Sample.measures).source ∧
      (Sample.lengths.nodes = Sample.units.nodes ∧
        (Table.load "a.xml" Sample.lengths.table).2 = []) ∧
      ofDocument "a.xml" (Sample.measures.withContents "tables" Sample.lengths.extendedNodes) =
        ofDocument "a.xml" Sample.measures := by
  have hasTables : Sample.measures.element? "tables" =
      some ⟨⟨"tables", [], 2⟩, Sample.units.nodes⟩ := rfl
  have missNone : (ofDocument "a.xml" Sample.measures).diagnostics.MissNoData := by decide
  obtain ⟨ofColumn, ofTable⟩ := ofDocument_extend "a.xml" Sample.measures _ hasTables missNone
  obtain ⟨-, sameSource, -⟩ := ofColumn Sample.units rfl
  exact ⟨⟨hasTables, missNone⟩, sameSource, ⟨rfl, rfl⟩, ofTable Sample.lengths rfl rfl⟩

/-- A value that was reported as ignored is not any more. -/
example :
    (Generated.ofDocument "a.xml" Sample.measures).diagnostics.length = 3 ∧
      (Generated.ofDocument "a.xml"
        (Sample.measures.withContents "tables" Sample.units.extendedNodes)).diagnostics.length =
          2 := by
  decide

end Stencil
