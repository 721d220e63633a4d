import Mathlib.Tactic.SplitIfs
import Stencil.Files.Tree
import Stencil.Proofs.Except

/-!
# Where writing leads

Writing to a path opens the file at one place. Which place that is, and whether there is one, is
decided by the names on the way and by the directories that stand there. What files hold has no part
in it, so writing one file does not change where other paths lead; only the reason why a path leads
to no file may become another one.

## Main results

* `FileTree.target_eq_ok_iff`: the paths that lead to a file
* `FileTree.target_put_eq_ok_iff`: targets do not depend on what files hold
* `FileTree.contents_put`: what is found afterwards at a path with this target
-/

namespace Stencil

namespace FileTree

variable {t : FileTree} {l m : Location} {content : FileContent} {path : String}

theorem target_eq_ok_iff :
    t.target path = .ok l ↔
      ∃ p parent name, pathOf path = .ok p ∧ t.locate p = .ok (.entry parent name) ∧
        p.endsWithSlash = false ∧ FilePath.isLongName name = false ∧ l = parent ++ [name] := by
  simp only [target, bind_eq_ok_iff]
  constructor
  · rintro ⟨p, isPath, goal, leads, isTarget⟩
    cases goal with
    | directory d => cases isTarget
    | entry parent name =>
      refine ⟨p, parent, name, isPath, leads, ?_⟩
      dsimp only at isTarget
      split_ifs at isTarget with slash long
      exact ⟨by simpa using slash, by simpa using long, (Except.ok.inj isTarget).symm⟩
  · rintro ⟨p, parent, name, isPath, leads, noSlash, short, rfl⟩
    exact ⟨p, isPath, .entry parent name, leads, by simp [noSlash, short]⟩

/-! ### Targets and files -/

theorem enter_put_eq_ok_iff {base : Location} {step : String} :
    (t.put l content).enter base step = .ok m ↔ t.enter base step = .ok m := by
  have sameDirectories (d : Location) : (t.put l content).isDirectory d = t.isDirectory d := rfl
  unfold enter
  simp only [sameDirectories]
  split_ifs <;> simp

theorem locate_put_eq_ok_iff {p : FilePath} {goal : Goal} :
    (t.put l content).locate p = .ok goal ↔ t.locate p = .ok goal := by
  have sameStart : (t.put l content).start p = t.start p := rfl
  have sameDirectories (d : Location) : (t.put l content).isDirectory d = t.isDirectory d := rfl
  unfold locate
  cases p.steps.getLast? with
  | none => rw [sameStart]
  | some last =>
    simp only [sameStart, sameDirectories, bind_eq_ok_iff]
    exact exists_congr fun d =>
      and_congr_left' (foldlM_eq_ok_iff_of_forall fun _ _ _ => enter_put_eq_ok_iff)

/-- What files hold does not decide where writing leads. -/
theorem target_put_eq_ok_iff :
    (t.put l content).target path = .ok m ↔ t.target path = .ok m := by
  simp only [target_eq_ok_iff, locate_put_eq_ok_iff]

/-! ### What is found at a target -/

theorem contents_of_target (leads : t.target path = .ok l) (found : t.file? l = some content) :
    t.contents path = .ok content := by
  obtain ⟨p, parent, name, isPath, isEntry, noSlash, short, rfl⟩ := target_eq_ok_iff.mp leads
  simp [contents, isPath, isEntry, noSlash, short, found, bind, Except.bind]

/-- What was put at the target of a path is found there. -/
theorem contents_put (leads : t.target path = .ok l) :
    (t.put l content).contents path = .ok content :=
  contents_of_target (target_put_eq_ok_iff.mpr leads) (file?_put_self t l content)

end FileTree

end Stencil
