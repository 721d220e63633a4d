import Stencil.Proofs.Template.Environment
import Stencil.Proofs.Template.Independence

/-!
# Failing elements can be erased

An element that lacks something fails as a whole: it writes nothing, and what is around it is
expanded as if it were not there. So a template may be cleared of all elements that fail at their
place without a change to what is written, and only the errors are gone.

## Main definitions

* `Template.prune`: nodes without the elements that fail where they stand

## Main results

* `Template.yield_prune`: pruned nodes yield the same, except for the errors
* `Template.run_prune`: so does a pruned template, run against loaded tables
-/

namespace Stencil

open Markup Generated

namespace Template

mutual

/-- A node without the elements that fail where they stand. -/
def pruneNode (store : Store) (env : Environment) : Node → List Node
  | .text value line => [.text value line]
  | .element tag children =>
    if Fails store env tag then []
    else
      match inside? store env tag with
      | some inner => [.element tag (prune store inner children)]
      | none => [.element tag children]
termination_by structural node => node

/-- Nodes without the elements that fail where they stand. Contents that are not expanded are kept
as they are. -/
def prune (store : Store) (env : Environment) : List Node → List Node
  | [] => []
  | node :: nodes => pruneNode store env node ++ prune store env nodes
termination_by structural nodes => nodes

end

variable {file : String} {store : Store} {env : Environment} {scope : Scope} {tag : Tag}
  {nodes children : List Node}

/-- A failing element reports one error, and that is all. -/
theorem yieldNode_of_fails (file : String) (children : List Node)
    (describes : env.Describes scope) (fails : Fails store env tag) :
    ∃ problem : Problem, problem.severity = .error ∧
      yieldNode file store scope (.element tag children) =
        .ofProblem (problem.reportAt file tag.line) := by
  cases planned : plan store scope tag with
  | ok action => exact absurd fails ((exists_planned_iff describes).mp ⟨action, planned⟩)
  | error problem =>
    exact ⟨problem, failsOnly_plan problem planned, yieldNode_of_lacking planned⟩

theorem yield_prune_of_forall
    (same : ∀ node ∈ nodes, yield file store scope (pruneNode store env node) =
      (yieldNode file store scope node).withoutErrors) :
    yield file store scope (prune store env nodes) =
      (yield file store scope nodes).withoutErrors := by
  induction nodes with
  | nil => simp [prune]
  | cons node nodes ih =>
    have first := same node List.mem_cons_self
    have rest := ih fun other member => same other (List.mem_cons_of_mem node member)
    rw [prune, yield_append, yield_cons, withoutErrors_append, first, rest]

/-- A pruned node yields what the node yields, except for the errors. -/
theorem yield_pruneNode (resolved : ∀ table ∈ store.toList, table.Resolved) (node : Node)
    (describes : env.Describes scope) :
    yield file store scope (pruneNode store env node) =
      (yieldNode file store scope node).withoutErrors := by
  -- Whether an element fails is told by the environment, and so is the same in all scopes that it
  -- describes: the same elements are erased for every row.
  induction node generalizing env scope with
  | text value line =>
    simp [pruneNode, withoutErrors_of_success (Action.success_written scope value)]
  | element tag children ih =>
    by_cases fails : Fails store env tag
    · obtain ⟨problem, error, yields⟩ := yieldNode_of_fails file children describes fails
      simp [pruneNode, fails, yields, ofProblem, withoutErrors, error]
    · obtain ⟨action, planned⟩ := (exists_planned_iff describes).mpr fails
      rw [yieldNode_of_planned planned, Action.withoutErrors_fill, pruneNode, if_neg fails]
      cases opened : inside? store env tag with
      | none =>
        -- The contents are kept as they are, but nothing is expanded of them.
        have noRounds := (rounds_eq_nil_iff env planned).mpr opened
        simp only [yield_cons, yield_nil, append_empty, yieldNode_of_planned planned]
        exact Action.fill_congr fun derive member => by simp [noRounds] at member
      | some inner =>
        simp only [yield_cons, yield_nil, append_empty, yieldNode_of_planned planned]
        refine Action.fill_congr fun derive member => yield_prune_of_forall fun child inside => ?_
        exact ih child inside (describes_of_mem_rounds resolved describes planned opened member)

/-- Pruned nodes yield what the nodes yield, except for the errors. -/
theorem yield_prune (file : String) (resolved : ∀ table ∈ store.toList, table.Resolved)
    (nodes : List Node) (describes : env.Describes scope) :
    yield file store scope (prune store env nodes) =
      (yield file store scope nodes).withoutErrors :=
  yield_prune_of_forall fun node _ => yield_pruneNode resolved node describes

/-- A failing element leaves the streams as they are, and what is beside it is expanded as if it
were not there. -/
theorem expand_of_fails (describes : env.Describes scope) (fails : Fails store env tag)
    (before after : List Node) (out : Streams) :
    (∃ problem : Problem, problem.severity = .error ∧
      expandNode file store scope (.element tag children) out =
        (out, [problem.reportAt file tag.line])) ∧
    (expand file store scope (before ++ .element tag children :: after) out).1 =
      (expand file store scope (before ++ after) out).1 := by
  obtain ⟨problem, error, yields⟩ := yieldNode_of_fails file children describes fails
  refine ⟨⟨problem, error, ?_⟩, ?_⟩
  · rw [emits_expandNode, yields]
    simp [onto, ofProblem]
  · rw [emits_expand, emits_expand, yield_append, yield_append, yield_cons, yields]
    simp [onto, ofProblem]

/-- **Failing elements can be erased.** Run against the tables loaded from a document, a template
without the elements that fail where they stand writes the same header and the same source, reports
no error, and gives the same warnings in the same order. In particular a failing element writes
nothing, reports one error, and changes nothing that is written beside it. -/
theorem run_prune (origin file : String) (root template : Element) :
    let store := (Store.load origin root).1
    let pruned : Element := ⟨template.tag, prune store [] template.children⟩
    (run file store pruned).header = (run file store template).header ∧
      (run file store pruned).source = (run file store template).source ∧
      (run file store pruned).success = true ∧
      (run file store pruned).diagnostics =
        (run file store template).diagnostics.filter (·.severity = .warning) ∧
      ∀ (env : Environment) (scope : Scope) (tag : Tag), env.Describes scope →
        Fails store env tag → ∀ (children before after : List Node) (out : Streams),
          (∃ problem : Problem, problem.severity = .error ∧
            expandNode file store scope (.element tag children) out =
              (out, [problem.reportAt file tag.line])) ∧
          (expand file store scope (before ++ .element tag children :: after) out).1 =
            (expand file store scope (before ++ after) out).1 := by
  intro store pruned
  have resolved : ∀ table ∈ store.toList, table.Resolved := fun _ => Store.resolved_of_mem_load
  have same : run file store pruned = (run file store template).withoutErrors := by
    simpa only [run_eq_yield] using
      yield_prune file resolved template.children Environment.Describes.empty
  rw [same]
  refine ⟨rfl, rfl, success_withoutErrors _, diagnostics_withoutErrors _, ?_⟩
  intro env scope tag describes fails children before after out
  exact expand_of_fails describes fails before after out

end Template

namespace Sample

/-- A template with elements that fail: a tag that is no directive, a variable that is not bound,
and within an expansion, a column that there is not. -/
def faulty : Element :=
  ⟨⟨"gen", [], 8⟩,
    [.element ⟨"row", [], 9⟩ [.text "lost" 9], .text "a" 9,
     .element ⟨"expand", [("table", "Color"), ("var", "c")], 10⟩
       [.element ⟨"var", [("name", "c"), ("col", "shade")], 11⟩ [],
        .element ⟨"var", [("name", "c"), ("col", "hex"), ("transform", "upper")], 12⟩ []],
     .element ⟨"var", [("name", "c"), ("col", "hex")], 13⟩ []]⟩

end Sample

namespace Template

theorem run_prune_faulty :
    (Environment.Describes [] {} ∧ Fails Sample.store [] ⟨"row", [], 9⟩) ∧
      (expand "a.xml" Sample.store {} Sample.faulty.children {}).1 =
        (expand "a.xml" Sample.store {} Sample.faulty.children.tail {}).1 ∧
      (run "a.xml" Sample.store
        ⟨Sample.faulty.tag, prune Sample.store [] Sample.faulty.children⟩).source =
          (run "a.xml" Sample.store Sample.faulty).source := by
  have fails : Fails Sample.store [] ⟨"row", [], 9⟩ := by decide
  obtain ⟨-, sameSource, -, -, atomic⟩ :=
    run_prune "colors.xml" "a.xml" Sample.document Sample.faulty
  have beside := atomic [] {} ⟨"row", [], 9⟩ Environment.Describes.empty fails
    [.text "lost" 9] [] Sample.faulty.children.tail {}
  exact ⟨⟨Environment.Describes.empty, fails⟩, beside.2, sameSource⟩

end Template

end Stencil
