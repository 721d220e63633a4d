import Stencil.Proofs.Table.Extension
import Stencil.Proofs.Template.Reports

/-!
# More data than a template asks for

What a template asks for in a store, it finds in any store that has more: tables of other names, or
rows with values in further columns. Two runs are compared whose scopes stand for the same rows up
to such values. They go the same way as long as nothing is missing in the first one: where that
finds no table or no column, the second may find one.

## Main definitions

* `Scope.Within`, `Action.Within`: a scope and an action with more data
* `Problem.MissesData`, `Diagnostics.MissNoData`: nothing is missing that more data could provide

## Main results

* `Template.plan_corresponds_of_within`: where nothing is missing, plans are the same
* `Template.yield_eq_of_within`: what nodes yield is the same
-/

namespace Stencil

open Markup

/-! ### More data -/

/-- The bindings are to rows of tables of the same name, one within the other. -/
structure Binding.Within (binding binding' : Binding) : Prop where
  table : binding.table = binding'.table
  row : binding.row.Within binding'.row

/-- The scopes write the same streams with the same text between rows, and the same variables stand
for rows that are one within the other. -/
structure Scope.Within (σ τ : Scope) : Prop where
  target : σ.target = τ.target
  separator : σ.separator = τ.separator
  bindings : ∀ name, Option.Rel Binding.Within (σ.lookup name) (τ.lookup name)

/-- The actions are the same, with tables one within the other. -/
inductive Action.Within : Action → Action → Prop where
  | retarget (target : Target) : Within (.retarget target) (.retarget target)
  | repeatRows {table table' : Table} (tables : table.Within table') (name : String) :
    Within (.repeatRows table name) (.repeatRows table' name)
  | writeValue (value : String) (unknown : Option String) :
    Within (.writeValue value unknown) (.writeValue value unknown)
  | enumeration (name : String) : Within (.enumeration name) (.enumeration name)
  | array (name : String) {table table' : Table} (tables : table.Within table')
    (binder : String) : Within (.array name table binder) (.array name table' binder)

namespace Scope.Within

variable {σ τ : Scope} {row row' : Row}

@[refl] theorem refl (σ : Scope) : σ.Within σ := by
  refine ⟨rfl, rfl, fun name => ?_⟩
  cases σ.lookup name with
  | none => exact .none
  | some binding => exact .some ⟨rfl, .refl binding.row⟩

theorem withTarget (within : σ.Within τ) (target : Target) :
    (σ.withTarget target).Within (τ.withTarget target) :=
  ⟨rfl, within.separator, within.bindings⟩

theorem withSeparator (within : σ.Within τ) (separator : String) :
    (σ.withSeparator separator).Within (τ.withSeparator separator) :=
  ⟨within.target, rfl, within.bindings⟩

theorem bind (within : σ.Within τ) (binder table : String) (rows : row.Within row') :
    (σ.bind binder table row).Within (τ.bind binder table row') := by
  refine ⟨within.target, within.separator, fun name => ?_⟩
  rw [lookup_bind, lookup_bind]
  by_cases bound : binder = name
  · rw [if_pos bound, if_pos bound]
    exact .some ⟨rfl, rows⟩
  · rw [if_neg bound, if_neg bound]
    exact within.bindings name

/-- What is written depends on the streams that are written alone. -/
theorem written (within : σ.Within τ) (text : String) : σ.written text = τ.written text := by
  rw [Scope.written, Scope.written, within.target]

end Scope.Within

/-! ### What an action yields -/

namespace Action.Within

variable {file : String} {line : Nat} {σ τ : Scope} {action action' : Action}
  {contents contents' : Scope → Generated}

theorem rounds (within : action.Within action') (scopes : σ.Within τ) :
    List.Forall₂ (fun derive derive' => (derive σ).Within (derive' τ)) action.rounds
      action'.rounds := by
  cases within with
  | retarget target => exact .cons (scopes.withTarget target) .nil
  | writeValue value unknown => exact .nil
  | enumeration name => exact .cons (scopes.withTarget .headerOnly) .nil
  | @repeatRows table table' tables name =>
    rw [Action.rounds, Action.rounds, List.forall₂_map_left_iff, List.forall₂_map_right_iff]
    refine tables.rows.imp fun row row' rows => ?_
    rw [tables.name]
    exact scopes.bind name table'.name rows
  | @array name table table' tables binder =>
    have inside := (scopes.withTarget .sourceOnly).withSeparator Template.itemSeparator
    rw [Action.rounds, Action.rounds, List.forall₂_map_left_iff, List.forall₂_map_right_iff]
    refine tables.rows.imp fun row row' rows => ?_
    rw [tables.name]
    exact inside.bind binder table'.name rows

theorem before_eq (within : action.Within action') (scopes : σ.Within τ) :
    action.before file line σ = action'.before file line τ := by
  cases within with
  | retarget target | repeatRows tables name => rfl
  | writeValue value unknown =>
    cases unknown with
    | none => exact scopes.written value
    | some unknown => rw [Action.before, Action.before, scopes.written value]
  | enumeration name => exact (scopes.withTarget .headerOnly).written _
  | array name tables binder =>
    -- The size of an array is the number of rows, which is the same for both tables.
    have header := (scopes.withTarget .headerOnly).written
    have source := (scopes.withTarget .sourceOnly).written
    simp only [Action.before, Scope.onlyHeader, Scope.onlySource, tables.rows.length_eq, header,
      source]

theorem between_eq (within : action.Within action') (scopes : σ.Within τ) :
    action.between σ = action'.between τ := by
  cases within with
  | retarget target | writeValue value unknown | enumeration name => rfl
  | repeatRows tables name =>
    rw [Action.between, Action.between, scopes.separator, scopes.written]
  | array name tables binder => exact (scopes.withTarget .sourceOnly).written _

theorem after_eq (within : action.Within action') (scopes : σ.Within τ) :
    action.after σ = action'.after τ := by
  cases within with
  | retarget target | repeatRows tables name | writeValue value unknown => rfl
  | enumeration name => exact (scopes.withTarget .headerOnly).written _
  | array name tables binder => exact (scopes.withTarget .sourceOnly).written _

/-- An action with more data yields the same, if its contents do in every round. -/
theorem fill_eq (within : action.Within action') (scopes : σ.Within τ)
    (same : List.Forall₂ (fun derive derive' => contents (derive σ) = contents' (derive' τ))
      action.rounds action'.rounds) :
    action.fill file line σ contents = action'.fill file line τ contents' := by
  have sameRounds : action.rounds.map (fun derive => contents (derive σ)) =
      action'.rounds.map fun derive => contents' (derive τ) := by
    rw [← List.forall₂_eq_eq_eq, List.forall₂_map_left_iff, List.forall₂_map_right_iff]
    exact same
  rw [fill, fill, within.before_eq scopes, within.between_eq scopes, within.after_eq scopes,
    sameRounds]

end Action.Within

/-! ### Nothing is missing -/

/-- The problem is that a table or a column is missing. -/
def Problem.MissesData (problem : Problem) : Prop :=
  problem.kind = .unknownTable ∨ problem.kind = .unknownColumn

/-- No error is that a table or a column is missing. -/
def Diagnostics.MissNoData (ds : Diagnostics) : Prop :=
  ∀ d ∈ ds, d.isError = true → d.kind ≠ .unknownTable ∧ d.kind ≠ .unknownColumn

instance (ds : Diagnostics) : Decidable ds.MissNoData :=
  inferInstanceAs (Decidable (∀ d ∈ ds, _ → _))

namespace Diagnostics.MissNoData

variable {ds es : Diagnostics}

theorem of_append_right (missNone : MissNoData (ds ++ es)) : es.MissNoData :=
  fun d member => missNone d (List.mem_append_right ds member)

theorem of_flatMap {α : Type} {l : List α} {f : α → Diagnostics}
    (missNone : MissNoData (l.flatMap f)) {a : α} (member : a ∈ l) : (f a).MissNoData :=
  fun d reported => missNone d (List.mem_flatMap.mpr ⟨a, member, reported⟩)

end Diagnostics.MissNoData

namespace Template

variable {store store' : Store} {σ τ : Scope} {file : String} {tag : Tag} {nodes : List Node}

theorem requireTable_corresponds_of_within (stores : store.Within store') (tag : Tag) :
    CorrespondsUnless Problem.MissesData Table.Within (requireTable store tag)
      (requireTable store' tag) := by
  refine (CorrespondsUnless.refl (fun _ => rfl) _).bind ?_
  rintro name _ rfl
  cases found : store.get? name with
  | none => exact .excused (.inl rfl) _
  | some table =>
    obtain ⟨table', found', within⟩ := stores name table found
    rw [found']
    exact .ok within

theorem planValue_corresponds_of_within (scopes : σ.Within τ) (tag : Tag) :
    CorrespondsUnless Problem.MissesData Action.Within (planValue σ tag) (planValue τ tag) := by
  refine (CorrespondsUnless.refl (fun _ => rfl) _).bind ?_
  rintro name _ rfl
  have related := scopes.bindings name
  generalize σ.lookup name = bound, τ.lookup name = bound' at related
  cases related with
  | none => exact .error _
  | @some binding binding' within =>
    refine (CorrespondsUnless.refl (fun _ => rfl) _).bind ?_
    rintro column _ rfl
    cases found : binding.row.get? column with
    | none => exact .excused (.inr rfl) _
    | some value =>
      -- The second row has the same value, so that the plans no longer differ.
      simp only [within.row column value found]
      cases tag.attribute? "transform" with
      | none => exact .ok (.writeValue _ none)
      | some transform =>
        simp only
        cases Transform.ofName? transform with
        | none => exact .ok (.writeValue _ (some transform))
        | some known => exact .ok (.writeValue _ none)

/-- With more data, an element does the same or lacks the same, unless it lacks data. -/
theorem plan_corresponds_of_within (stores : store.Within store') (scopes : σ.Within τ)
    (tag : Tag) :
    CorrespondsUnless Problem.MissesData Action.Within (plan store σ tag) (plan store' τ tag) :=
  plan_correspondsUnless (requireTable_corresponds_of_within stores tag)
    (planValue_corresponds_of_within scopes tag) .retarget .enumeration
    (fun _ _ name tables => .repeatRows tables name)
    (fun name _ _ binder tables => .array name tables binder)

/-! ### What a template yields -/

theorem yield_eq_of_forall
    (missNone : (yield file store σ nodes).diagnostics.MissNoData)
    (same : ∀ node ∈ nodes, (yieldNode file store σ node).diagnostics.MissNoData →
      yieldNode file store σ node = yieldNode file store' τ node) :
    yield file store σ nodes = yield file store' τ nodes := by
  rw [diagnostics_yield] at missNone
  rw [yield_eq_intersperse, yield_eq_intersperse]
  congr 1
  refine List.map_congr_left fun node member => ?_
  exact same node member (missNone.of_flatMap member)

/-- With more data, a node yields the same, unless it lacks data. -/
theorem yieldNode_eq_of_within (stores : store.Within store') (scopes : σ.Within τ) (node : Node)
    (missNone : (yieldNode file store σ node).diagnostics.MissNoData) :
    yieldNode file store σ node = yieldNode file store' τ node := by
  -- Where the runs could part, the first one reports that data is missing.
  induction node generalizing σ τ with
  | text value line => rw [yieldNode_text, yieldNode_text, scopes.written]
  | element tag children ih =>
    have plans := plan_corresponds_of_within stores scopes tag
    generalize planned : plan store σ tag = result, planned' : plan store' τ tag = result' at plans
    cases plans with
    | @excused problem misses result' =>
      have isError : problem.severity = .error := failsOnly_plan problem planned
      -- An excuse is a report of missing data, and there is none by assumption.
      rw [yieldNode_of_lacking planned] at missNone
      obtain ⟨hasTable, hasColumn⟩ := missNone (problem.reportAt file tag.line)
        List.mem_cons_self (by simp [isError])
      exact absurd misses (not_or.mpr ⟨hasTable, hasColumn⟩)
    | error problem => rw [yieldNode_of_lacking planned, yieldNode_of_lacking planned']
    | @ok action action' within =>
      rw [yieldNode_of_planned planned, Action.diagnostics_fill] at missNone
      rw [yieldNode_of_planned planned, yieldNode_of_planned planned']
      have missNoneInside : ∀ derive ∈ action.rounds,
          (yield file store (derive σ) children).diagnostics.MissNoData :=
        fun derive member => missNone.of_append_right.of_flatMap member
      have rounds := (List.forall₂_and_left _ _).mpr ⟨missNoneInside, within.rounds scopes⟩
      refine within.fill_eq scopes (rounds.imp ?_)
      rintro derive derive' ⟨missNone, inside⟩
      exact yield_eq_of_forall missNone fun child member missNone => ih child member inside missNone

/-- With more data, nodes yield the same, unless they lack data. -/
theorem yield_eq_of_within (stores : store.Within store') (scopes : σ.Within τ) (nodes : List Node)
    (missNone : (yield file store σ nodes).diagnostics.MissNoData) :
    yield file store σ nodes = yield file store' τ nodes :=
  yield_eq_of_forall missNone fun node _ => yieldNode_eq_of_within stores scopes node

end Template

end Stencil
