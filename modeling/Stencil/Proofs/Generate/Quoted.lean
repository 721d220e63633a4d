import Stencil.Proofs.Markup.Lines
import Stencil.Proofs.Template.Reports

/-!
# What is reported of a document

A message quotes names and values. Those in the messages of a document are words of its tags, that
is names of elements and names and values of attributes, but for the names of the attributes that
directives cannot do without; and every problem is located on the line of a tag. So whatever a
reader finds in a report comes from the tags of the document.

## Main definitions

* `Problem.quoted`: the texts that a message quotes
* `Markup.Tag.words`: the texts of which a tag consists
* `Diagnostics.About`: problems on lines of tags that quote words of tags

## Main results

* `Problem.newline_mem_message_iff`: a message has no newlines but those that it quotes
* `Generated.about_ofDocument`: what generating reports is about the tags of the document
-/

namespace Stencil

open Markup

/-! ### Messages and what they quote -/

/-- A text that is quoted stands in the message as it is. -/
theorem toString_string (s : String) : toString s = s := rfl

/-- The texts that the message of a problem quotes. -/
def Problem.quoted : Problem → List String
  | noTables | noTemplate => []
  | namelessColumn table | tableRedefined table _ | noSuchTable table => [table]
  | columnRedeclared column table _ | valueIgnored column table => [column, table]
  | unknownDirective tag => [tag]
  | attributeMissing key tag => [key, tag]
  | notBound name | noSuchTransform name => [name]
  | noSuchColumn column name table => [column, name, table]
  | textMissing pattern | patternRepeated pattern _ => [pattern]
  | unloadable cause => [cause]
  | elementDropped key | memberDropped key => [key]

theorem newline_not_mem_toDigits (n : Nat) : '\n' ∉ Nat.toDigits 10 n := by
  intro member
  exact absurd (Nat.isDigit_of_mem_toDigits (by decide) (by decide) member) (by decide)

/-- The wording itself is on one line: a message has a newline exactly if something that it quotes
has one. -/
theorem Problem.newline_mem_message_iff (p : Problem) :
    '\n' ∈ p.message.toList ↔ ∃ word ∈ p.quoted, '\n' ∈ word.toList := by
  unfold message quoted
  cases p <;> simp [toString_string, newline_not_mem_toDigits]

namespace Markup.Tag

/-- The texts of which a tag consists: its name, and the names and values of its attributes. -/
def words (tag : Tag) : List String :=
  tag.name :: tag.attributes.flatMap fun (key, value) => [key, value]

variable {tag : Tag} {key value : String}

theorem name_mem_words (tag : Tag) : tag.name ∈ tag.words := List.mem_cons_self

theorem key_mem_words (isAttribute : (key, value) ∈ tag.attributes) : key ∈ tag.words :=
  List.mem_cons_of_mem _ (List.mem_flatMap.mpr ⟨_, isAttribute, List.mem_cons_self⟩)

theorem value_mem_words (has : tag.attribute? key = some value) : value ∈ tag.words := by
  obtain ⟨before, after, isSplit, -⟩ := List.lookup_eq_some_iff.mp has
  have isAttribute : (key, value) ∈ tag.attributes := by
    rw [isSplit]
    exact List.mem_append_right before List.mem_cons_self
  apply List.mem_cons_of_mem
  exact List.mem_flatMap.mpr ⟨_, isAttribute, List.mem_cons_of_mem key List.mem_cons_self⟩

end Markup.Tag

/-- The names of the attributes that directives cannot do without. -/
def Template.requiredKeys : List String := ["name", "table", "var", "col"]

/-- What the message of the problem quotes are words of the tags, or names of attributes that
directives cannot do without. -/
def Problem.QuotesFrom (tags : List Tag) (p : Problem) : Prop :=
  ∀ word ∈ p.quoted, word ∈ Template.requiredKeys ∨ ∃ tag ∈ tags, word ∈ tag.words

namespace Diagnostics

variable {file : String} {tags tags' : List Tag} {ds es : Diagnostics} {tag : Tag}
  {problem : Problem}

/-- Every diagnostic reports, on the line of one of the tags, a problem whose message quotes words
of the tags. -/
def About (file : String) (tags : List Tag) (ds : Diagnostics) : Prop :=
  ∀ d ∈ ds, ∃ problem : Problem, ∃ tag ∈ tags,
    d = problem.reportAt file tag.line ∧ problem.QuotesFrom tags

namespace About

theorem nil : About file tags [] := List.forall_mem_nil _

theorem singleton (member : tag ∈ tags) (quotes : problem.QuotesFrom tags) :
    About file tags [problem.reportAt file tag.line] :=
  List.forall_mem_singleton.mpr ⟨problem, tag, member, rfl, quotes⟩

theorem append (first : About file tags ds) (second : About file tags es) :
    About file tags (ds ++ es) :=
  List.forall_mem_append.mpr ⟨first, second⟩

theorem flatMap {α : Type} {l : List α} {f : α → Diagnostics}
    (each : ∀ a ∈ l, About file tags (f a)) : About file tags (l.flatMap f) := by
  intro d member
  obtain ⟨a, inList, reported⟩ := List.mem_flatMap.mp member
  exact each a inList d reported

/-- What is about some tags is about those and others. -/
theorem mono (about : About file tags ds) (subset : tags ⊆ tags') : About file tags' ds := by
  intro d member
  obtain ⟨problem, tag, isTag, isReport, quotes⟩ := about d member
  refine ⟨problem, tag, subset isTag, isReport, fun word quoted => ?_⟩
  refine (quotes word quoted).imp_right ?_
  rintro ⟨origin, isOrigin, isWord⟩
  exact ⟨origin, subset isOrigin, isWord⟩

end About

end Diagnostics

open Diagnostics

/-! ### Loading tables -/

theorem Table.about_load (file : String) (e : Element) :
    (Table.load file e).2.About file e.tags := by
  have isTable : ∃ tag ∈ e.tags, e.name ∈ tag.words := ⟨e.tag, e.tag_mem_tags, e.tag.name_mem_words⟩
  refine About.append (Schema.forall_mem_load ?_ ?_) (.flatMap fun row member => ?_)
  · intro col member
    refine ⟨_, col.tag, Element.tag_mem_tags_of_mem_elementsNamed member, rfl, ?_⟩
    exact List.forall_mem_singleton.mpr (.inr isTable)
  · intro col member name line named
    have isTag := Element.tag_mem_tags_of_mem_elementsNamed member
    refine ⟨_, col.tag, isTag, rfl, List.forall_mem_cons.mpr ⟨.inr ?_, ?_⟩⟩
    · exact ⟨col.tag, isTag, Tag.value_mem_words named⟩
    · exact List.forall_mem_singleton.mpr (.inr isTable)
  · intro d ignored
    obtain ⟨⟨key, value⟩, isIgnored, rfl⟩ := List.mem_map.mp ignored
    have isTag := Element.tag_mem_tags_of_mem_elementsNamed member
    refine ⟨_, row.tag, isTag, rfl, List.forall_mem_cons.mpr ⟨.inr ?_, ?_⟩⟩
    · exact ⟨row.tag, isTag, Tag.key_mem_words (List.mem_of_mem_filter isIgnored)⟩
    · exact List.forall_mem_singleton.mpr (.inr isTable)

theorem Store.about_load (file : String) (root : Element) :
    (load file root).2.About file root.tags := by
  unfold load
  split
  · exact .singleton root.tag_mem_tags (List.forall_mem_nil _)
  · rename_i tables found
    have inTags : ∀ e ∈ tables.elements, e.tags ⊆ root.tags := by
      intro e member tag isTag
      apply Element.tags_subset_of_element? found
      exact Element.tags_subset_of_mem_elements member isTag
    refine forall_mem_loadTables
      (fun e member => (Table.about_load file e).mono (inTags e member)) ?_
    intro e member line
    have isTag := inTags e member e.tag_mem_tags
    refine ⟨_, e.tag, isTag, rfl, List.forall_mem_singleton.mpr (.inr ?_)⟩
    exact ⟨e.tag, isTag, e.tag.name_mem_words⟩

/-! ### Expanding a template -/

/-- The tables whose rows are bound have words of the tags for names. -/
def Scope.BindsFrom (tags : List Tag) (scope : Scope) : Prop :=
  ∀ name binding, scope.lookup name = some binding → ∃ tag ∈ tags, binding.table ∈ tag.words

namespace Template

variable {file : String} {store : Store} {scope : Scope} {tags : List Tag} {tag : Tag}
  {action : Action} {derive : Scope → Scope}

theorem quotesFrom_require {key : String} (isKey : key ∈ requiredKeys) (member : tag ∈ tags) :
    FailsOnly (Problem.QuotesFrom tags) (require tag key) := by
  unfold require
  split
  · exact .ok _
  · refine .error (List.forall_mem_cons.mpr ⟨.inl isKey, List.forall_mem_singleton.mpr (.inr ?_)⟩)
    exact ⟨tag, member, tag.name_mem_words⟩

theorem quotesFrom_requireTable (member : tag ∈ tags) :
    FailsOnly (Problem.QuotesFrom tags) (requireTable store tag) := by
  refine (quotesFrom_require (by decide) member).bind_of_ok fun name named => ?_
  split
  · exact .ok _
  · refine .error (List.forall_mem_singleton.mpr (.inr ⟨tag, member, ?_⟩))
    exact Tag.value_mem_words (require_eq_ok_iff.mp named)

theorem quotesFrom_planValue (binds : scope.BindsFrom tags) (member : tag ∈ tags) :
    FailsOnly (Problem.QuotesFrom tags) (planValue scope tag) := by
  refine (quotesFrom_require (by decide) member).bind_of_ok fun name named => ?_
  have isName : ∃ tag ∈ tags, name ∈ tag.words :=
    ⟨tag, member, Tag.value_mem_words (require_eq_ok_iff.mp named)⟩
  split
  · exact .error (List.forall_mem_singleton.mpr (.inr isName))
  · rename_i binding bound
    refine (quotesFrom_require (by decide) member).bind_of_ok fun column inColumn => ?_
    have isColumn : ∃ tag ∈ tags, column ∈ tag.words :=
      ⟨tag, member, Tag.value_mem_words (require_eq_ok_iff.mp inColumn)⟩
    split
    · refine .error fun word quoted => ?_
      -- The message names the column, the variable, and the table that this stands for.
      simp only [Problem.quoted, List.mem_cons, List.not_mem_nil, or_false] at quoted
      rcases quoted with rfl | rfl | rfl
      · exact .inr isColumn
      · exact .inr isName
      · exact .inr (binds name binding bound)
    · split
      · exact .ok _
      · split <;> exact .ok _

/-- What a directive lacks is told in words of the tags. -/
theorem quotesFrom_plan (binds : scope.BindsFrom tags) (member : tag ∈ tags) :
    FailsOnly (Problem.QuotesFrom tags) (plan store scope tag) := by
  have requires {key : String} (isKey : key ∈ requiredKeys) := quotesFrom_require isKey member
  unfold plan
  split
  case h_1 => exact .error (List.forall_mem_singleton.mpr (.inr ⟨tag, member, tag.name_mem_words⟩))
  case h_2 | h_3 => exact .ok _
  case h_4 =>
    exact (quotesFrom_requireTable member).bind fun table =>
      (requires (by decide)).bind fun name => .ok _
  case h_5 => exact quotesFrom_planValue binds member
  case h_6 => exact (requires (by decide)).bind fun name => .ok _
  case h_7 =>
    exact (requires (by decide)).bind fun name => (quotesFrom_requireTable member).bind fun table =>
      (requires (by decide)).bind fun binder => .ok _

theorem about_warnings (planned : plan store scope tag = .ok action) (member : tag ∈ tags) :
    (action.warnings file tag.line).About file tags := by
  cases plan_eq_ok_iff.mp planned with
  | source directive | header directive | enum directive named
  | expand directive reads stored binds | expandData directive named reads stored binds =>
    exact .nil
  | var directive named bound inColumn found =>
    unfold Tag.unknownTransform?
    split
    · exact .nil
    · cases asked : tag.attribute? "transform" with
      | none => exact .nil
      | some transform =>
        refine .singleton member (List.forall_mem_singleton.mpr (.inr ?_))
        exact ⟨tag, member, Tag.value_mem_words asked⟩

/-- The rows that an element binds for its contents are those of the table that its tag names. -/
theorem bindsFrom_of_mem_rounds (binds : scope.BindsFrom tags) (member : tag ∈ tags)
    (planned : plan store scope tag = .ok action) (isRound : derive ∈ action.rounds) :
    (derive scope).BindsFrom tags := by
  have bindsRow {tableName : String} {table : Table}
      (reads : tag.attribute? "table" = some tableName) (stored : store.get? tableName = some table)
      (binder : String) (row : Row) {inside : Scope}
      (inner : inside.BindsFrom tags) : (inside.bind binder table.name row).BindsFrom tags := by
    have sameName : table.name = tableName := Registry.name_of_get?_eq_some stored
    intro name binding bound
    rw [Scope.lookup_bind] at bound
    split at bound
    · obtain rfl := Option.some.inj bound
      exact ⟨tag, member, sameName ▸ Tag.value_mem_words reads⟩
    · exact inner name binding bound
  -- Of what a directive does inside, only the rows that it goes through bind anything.
  cases plan_eq_ok_iff.mp planned with
  | source directive | header directive | enum directive named =>
    obtain rfl := List.mem_singleton.mp isRound
    exact binds
  | var directive named bound inColumn found => cases isRound
  | expand directive reads stored _ =>
    obtain ⟨row, -, rfl⟩ := List.mem_map.mp isRound
    exact bindsRow reads stored _ row binds
  | expandData directive named reads stored _ =>
    obtain ⟨row, -, rfl⟩ := List.mem_map.mp isRound
    exact bindsRow reads stored _ row binds

/-- What nodes report is about the tags in them. -/
theorem about_yield_of_forall {nodes : List Node}
    (each : ∀ node ∈ nodes, (yieldNode file store scope node).diagnostics.About file tags) :
    (yield file store scope nodes).diagnostics.About file tags := by
  rw [diagnostics_yield]
  exact .flatMap each

/-- What a node reports is about the tags of the document: an element reports on its own line, and
otherwise what its contents report. -/
theorem about_yieldNode (binds : scope.BindsFrom tags) (node : Node) (within : node.tags ⊆ tags) :
    (yieldNode file store scope node).diagnostics.About file tags := by
  -- Inside an element more is bound than around it, so the induction is for all bindings.
  induction node generalizing scope with
  | text value line =>
    rw [yieldNode_text]
    exact .nil
  | element tag children ih =>
    rw [Node.tags_element] at within
    obtain ⟨member, inside⟩ := List.cons_subset.mp within
    cases planned : plan store scope tag with
    | error problem =>
      rw [yieldNode_of_lacking planned]
      exact .singleton member (quotesFrom_plan binds member problem planned)
    | ok action =>
      rw [yieldNode_of_planned planned, Action.diagnostics_fill]
      refine (about_warnings planned member).append (.flatMap fun derive isRound => ?_)
      refine about_yield_of_forall fun child isChild => ?_
      refine ih child isChild (bindsFrom_of_mem_rounds binds member planned isRound) ?_
      exact fun tag isTag => inside (List.mem_flatMap.mpr ⟨child, isChild, isTag⟩)

end Template

/-- **What is reported of a document.** Every problem is reported on the line of one of the tags of
the document, and its message quotes nothing but words of these tags and names of attributes that
directives cannot do without. -/
theorem Generated.about_ofDocument (file : String) (root : Element) :
    (ofDocument file root).diagnostics.About file root.tags := by
  have loaded := Store.about_load file root
  cases found : root.element? "gen" with
  | none =>
    simp only [ofDocument, found]
    exact loaded.append (.singleton root.tag_mem_tags (List.forall_mem_nil _))
  | some template =>
    have noneBound : Scope.BindsFrom root.tags {} := by
      intro name binding bound
      cases bound
    simp only [ofDocument, found]
    refine loaded.append (Template.about_yield_of_forall fun node isNode => ?_)
    refine Template.about_yieldNode noneBound node fun tag isTag => ?_
    apply Element.tags_subset_of_element? found
    rw [Element.tags_eq]
    exact List.mem_cons_of_mem _ (List.mem_flatMap.mpr ⟨node, isNode, isTag⟩)

/-- Whatever generating reports of a document is one of the problems that an input can have, on a
known line: its kind and its severity go together as they do for problems. -/
theorem Generated.fromProblems_ofDocument (file : String) (root : Element) :
    ∀ d ∈ (ofDocument file root).diagnostics,
      ∃ (problem : Problem) (line : Nat), d = problem.reportAt file line := by
  intro d reported
  obtain ⟨problem, tag, -, isReport, -⟩ := about_ofDocument file root d reported
  exact ⟨problem, tag.line, isReport⟩

end Stencil
