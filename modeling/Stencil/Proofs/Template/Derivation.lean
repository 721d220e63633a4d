import Stencil.Proofs.Template.Independence

/-!
# Scopes derived one after the other

A scope holds three kinds of decisions: which streams are written, what is written between rows, and
what each variable stands for. A derivation makes one of them anew and leaves the others as they
are. So after a run of derivations each decision is the one that was made last, and derivations that
are about different decisions may come in any order. Bindings of different variables are different
decisions; the scopes they lead to may keep them in another order, but nothing tells these apart.

## Main definitions

* `Derivation`, `Scope.deriveAll`: a way to derive a scope, and runs of them
* `Decision`: what a scope holds on one concern
* `Scope.Same`: scopes that hold the same decisions

## Main results

* `Decision.held_deriveAll`: after a run of derivations, the decision made last is held
* `Scope.same_deriveAll`: how derivations about different concerns interleave does not matter
* `Template.expand_eq_of_same`: what is expanded in a scope depends on its decisions only
* `Scope.ofDerivations_last`: what a run of derivations leads to
-/

namespace Stencil

open Markup Generated

/-- A way to derive a scope from another one. -/
inductive Derivation where
  /-- Write the source only. -/
  | onlySource
  /-- Write the header only. -/
  | onlyHeader
  /-- Write this text between rows. -/
  | withSeparator (separator : String)
  /-- Let a variable stand for a row of a table. -/
  | bind (name table : String) (row : Row)
deriving Repr, DecidableEq

/-- What a derivation is about. -/
inductive Concern where
  | streams
  | separator
  | binding (name : String)
deriving Repr, DecidableEq

namespace Derivation

/-- What the derivation is about. -/
def concern : Derivation → Concern
  | onlySource | onlyHeader => .streams
  | withSeparator _ => .separator
  | bind name _ _ => .binding name

/-- The streams that are written by decision of the derivation, if it decides on them. -/
def target? : Derivation → Option Target
  | onlySource => some .sourceOnly
  | onlyHeader => some .headerOnly
  | withSeparator _ | bind _ _ _ => none

/-- The text between rows by decision of the derivation, if it decides on that. -/
def separator? : Derivation → Option String
  | withSeparator separator => some separator
  | onlySource | onlyHeader | bind _ _ _ => none

/-- What the derivation binds a variable to, if it binds it. -/
def binding? (name : String) : Derivation → Option Binding
  | bind bound table row => if bound = name then some ⟨table, row⟩ else none
  | onlySource | onlyHeader | withSeparator _ => none

end Derivation

namespace Scope

/-- The scope derived from another one. -/
def derive (scope : Scope) : Derivation → Scope
  | .onlySource => scope.onlySource
  | .onlyHeader => scope.onlyHeader
  | .withSeparator separator => scope.withSeparator separator
  | .bind name table row => scope.bind name table row

/-- The scope derived by a run of derivations, one after the other. -/
def deriveAll (scope : Scope) (ds : List Derivation) : Scope := ds.foldl derive scope

@[simp] theorem deriveAll_cons (scope : Scope) (d : Derivation) (ds : List Derivation) :
    scope.deriveAll (d :: ds) = (scope.derive d).deriveAll ds := rfl

/-- The scope that a run of derivations leads to, with nothing decided before. -/
def ofDerivations (ds : List Derivation) : Scope := deriveAll {} ds

/-- The scopes hold the same decisions. The bindings in them may be kept in another order. -/
structure Same (σ τ : Scope) : Prop where
  target : σ.target = τ.target
  separator : σ.separator = τ.separator
  lookup : ∀ name, σ.lookup name = τ.lookup name

end Scope

/-! ### Decisions -/

/-- A decision that every scope holds. Derivations about one concern may make it anew; all others
leave the decision that is held as it is. -/
structure Decision (β : Type) where
  /-- The decision that a scope holds. -/
  held : Scope → β
  /-- The decision that a derivation makes, if it makes it. -/
  made? : Derivation → Option β
  /-- What the decision is about. -/
  concern : Concern
  held_derive : ∀ scope d, held (scope.derive d) = (made? d).getD (held scope)
  concern_of_made : ∀ d b, made? d = some b → d.concern = concern

namespace Decision

/-- Which streams are written. -/
def target : Decision Target where
  held := Scope.target
  made? := Derivation.target?
  concern := .streams
  held_derive scope d := by cases d <;> rfl
  concern_of_made d b made := by
    cases d with
    | onlySource | onlyHeader => rfl
    | withSeparator separator | bind name table row => cases made

/-- What is written between rows. -/
def separator : Decision String where
  held := Scope.separator
  made? := Derivation.separator?
  concern := .separator
  held_derive scope d := by cases d <;> rfl
  concern_of_made d b made := by
    cases d with
    | withSeparator separator => rfl
    | onlySource | onlyHeader | bind name table row => cases made

/-- What a variable stands for, if for anything. -/
def binding (name : String) : Decision (Option Binding) where
  held scope := scope.lookup name
  made? d := (d.binding? name).map some
  concern := .binding name
  held_derive scope d := by
    cases d with
    | onlySource | onlyHeader | withSeparator separator => rfl
    | bind bound table row =>
      rw [Scope.derive, Scope.lookup_bind, Derivation.binding?]
      by_cases same : bound = name <;> simp [same]
  concern_of_made d b made := by
    cases d with
    | onlySource | onlyHeader | withSeparator separator => cases made
    | bind bound table row =>
      by_cases same : bound = name
      · rw [Derivation.concern, same]
      · simp [Derivation.binding?, same] at made

variable {β : Type} {scope : Scope} {ds es : List Derivation}

/-- After a run of derivations, the decision made last is held, or else the one held before. -/
theorem held_deriveAll (decision : Decision β) (scope : Scope) (ds : List Derivation) :
    decision.held (scope.deriveAll ds) =
      (ds.filterMap decision.made?).getLast?.getD (decision.held scope) := by
  induction ds generalizing scope with
  | nil => rfl
  | cons d ds ih =>
    rw [Scope.deriveAll_cons, ih, decision.held_derive, List.filterMap_cons]
    cases decision.made? d with
    | none => rfl
    | some b =>
      -- The first decision is the last one only if none is made after it.
      simp [List.getLast?_cons]

/-- Only derivations about its concern make a decision. -/
theorem filterMap_made (decision : Decision β) (ds : List Derivation) :
    (ds.filter (·.concern = decision.concern)).filterMap decision.made? =
      ds.filterMap decision.made? := by
  rw [List.filterMap_filter]
  refine List.filterMap_congr fun d _ => ?_
  cases made : decision.made? d with
  | none => rw [ite_self]
  | some b => rw [if_pos (decide_eq_true (decision.concern_of_made d b made))]

/-- Runs that agree in the derivations about its concern lead to the same decision. -/
theorem held_deriveAll_congr (decision : Decision β)
    (same : ds.filter (·.concern = decision.concern) = es.filter (·.concern = decision.concern)) :
    decision.held (scope.deriveAll ds) = decision.held (scope.deriveAll es) := by
  rw [held_deriveAll, held_deriveAll, ← decision.filterMap_made ds, same,
    decision.filterMap_made es]

end Decision

/-! ### Runs of derivations -/

namespace Template

variable {file : String} {store : Store} {σ τ : Scope} {nodes : List Node}

/-- What is expanded in a scope depends on its decisions only. -/
theorem expand_eq_of_same (same : σ.Same τ) :
    expand file store σ nodes = expand file store τ nodes := by
  have alike : σ.Alike True True τ :=
    ⟨fun _ => ⟨by rw [same.target], same.separator⟩, fun _ => ⟨by rw [same.target], same.separator⟩⟩
  have agree : Agree True True True (yield file store σ nodes) (yield file store τ nodes) :=
    yield_agree nodes alike same.lookup
  have sameYield : yield file store σ nodes = yield file store τ nodes :=
    Generated.ext (agree.header trivial) (agree.source trivial) (agree.diagnostics trivial)
  -- An emission is known by what it yields.
  funext out
  rw [emits_expand file store σ nodes out, emits_expand file store τ nodes out, sameYield]

end Template

namespace Scope

variable {ds es : List Derivation}

/-- After a run of derivations, a variable stands for what it was bound to last, or else for what it
stood for before. -/
theorem lookup_deriveAll (scope : Scope) (ds : List Derivation) (name : String) :
    (scope.deriveAll ds).lookup name =
      (ds.filterMap (Derivation.binding? name)).getLast?.or (scope.lookup name) := by
  have last := (Decision.binding name).held_deriveAll scope ds
  simp only [Decision.binding, ← List.map_filterMap, List.getLast?_map] at last
  rw [last]
  cases (ds.filterMap (Derivation.binding? name)).getLast? <;> rfl

/-- How derivations about different concerns interleave does not matter. -/
theorem same_deriveAll (scope : Scope)
    (same : ∀ concern, ds.filter (·.concern = concern) = es.filter (·.concern = concern)) :
    (scope.deriveAll ds).Same (scope.deriveAll es) where
  target := Decision.target.held_deriveAll_congr (same .streams)
  separator := Decision.separator.held_deriveAll_congr (same .separator)
  lookup name := (Decision.binding name).held_deriveAll_congr (same (.binding name))

/-- Neighbours about different concerns can be exchanged. -/
theorem filter_concern_exchange {d e : Derivation} (different : d.concern ≠ e.concern)
    (ds rest : List Derivation) (concern : Concern) :
    (ds ++ d :: e :: rest).filter (·.concern = concern) =
      (ds ++ e :: d :: rest).filter (·.concern = concern) := by
  rw [List.filter_append, List.filter_append]
  congr 1
  -- At most one of the two is about the concern, and it keeps its place among those that are.
  by_cases first : d.concern = concern
  · have second : e.concern ≠ concern := fun same => different (first.trans same.symm)
    simp [first, second]
  · simp [List.filter_cons, first]

/-- **The last derivation decides.** Take any run of derivations, with nothing decided before. The
streams written are those of the last derivation about them, or both if there is none; never neither
of them. The text between rows is that of the last derivation about it, or empty. A variable stands
for what it was bound to last, or for nothing. Runs that have the same derivations about each
concern, in the same order, lead to the same decisions, however they interleave them. So neighbours
in a run that are about different concerns, be they of different kinds or bindings of different
variables, can be exchanged, and no template tells the scopes apart. -/
theorem ofDerivations_last (ds : List Derivation) :
    (ofDerivations ds).target = (ds.filterMap Derivation.target?).getLast?.getD .both ∧
      ((ofDerivations ds).target.writesHeader = true ∨
        (ofDerivations ds).target.writesSource = true) ∧
      (ofDerivations ds).separator = (ds.filterMap Derivation.separator?).getLast?.getD "" ∧
      (∀ name, (ofDerivations ds).lookup name =
        (ds.filterMap (Derivation.binding? name)).getLast?) ∧
      (∀ es, (∀ concern, ds.filter (·.concern = concern) = es.filter (·.concern = concern)) →
        (ofDerivations ds).Same (ofDerivations es)) ∧
      ∀ d e, d.concern ≠ e.concern → ∀ rest,
        (ofDerivations (ds ++ d :: e :: rest)).Same (ofDerivations (ds ++ e :: d :: rest)) ∧
          ∀ file store nodes,
            Template.expand file store (ofDerivations (ds ++ d :: e :: rest)) nodes =
              Template.expand file store (ofDerivations (ds ++ e :: d :: rest)) nodes := by
  refine ⟨Decision.target.held_deriveAll {} ds, ?_, Decision.separator.held_deriveAll {} ds,
    fun name => ?_, fun es same => same_deriveAll {} same, fun d e different rest => ?_⟩
  · cases (ofDerivations ds).target <;> decide
  · have unbound : ({} : Scope).lookup name = none := rfl
    rw [ofDerivations, lookup_deriveAll, unbound, Option.or_none]
  · have same := same_deriveAll {} (filter_concern_exchange different ds rest)
    exact ⟨same, fun file store nodes => Template.expand_eq_of_same same⟩

example (red blue : Row) :
    (ofDerivations [.bind "c" "Color" red, .onlySource, .bind "d" "Color" red, .onlyHeader,
      .bind "c" "Shade" blue]).lookup "c" = some ⟨"Shade", blue⟩ := rfl

end Scope

end Stencil
