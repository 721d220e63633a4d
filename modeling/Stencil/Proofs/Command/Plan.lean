import Stencil.Command.Basic
import Stencil.Proofs.Files.Delivery

/-!
# How planned runs end

A plan that can be carried out ends as planned; if one of its files cannot be written, the run ends
in failure and says so after the report of problems. A plan for one file writes it, whether that
succeeds or not.

## Main definitions

* `Ending.Tells`: a run told of its problems, and after that of its failure, if it failed

## Main results

* `Plan.perform_of_takes`, `Plan.exists_perform_of_not_takes`: the two ways in which a plan ends
* `Plan.fst_perform_of_artifacts_eq_singleton`: plans for one file
-/

namespace Stencil

namespace ExitStatus

variable {status : ExitStatus}

theorem code_eq_zero_iff : status.code = 0 ↔ status = .success := by
  cases status <;> simp [code]

theorem code_eq_one_iff : status.code = 1 ↔ status = .problems := by
  cases status <;> simp [code]

/-- A run that does not break off ends with one of three statuses. -/
theorem code_mem_of_ne_brokenOff (orderly : status ≠ .brokenOff) : status.code ∈ [0, 1, 2] := by
  cases status <;> simp_all [code]

end ExitStatus

namespace Diagnostics

variable {ds : Diagnostics}

/-- The status by which a run tells whether it met errors. -/
theorem status_eq_or (ds : Diagnostics) :
    (ds.isSuccess = true ∧ ds.status = .success) ∨
      (ds.isSuccess = false ∧ ds.status = .problems) := by
  unfold status
  cases ds.isSuccess with
  | false => exact .inr ⟨rfl, rfl⟩
  | true => exact .inl ⟨rfl, rfl⟩

theorem status_eq_success_iff : ds.status = .success ↔ ds.isSuccess = true := by
  rcases ds.status_eq_or with ⟨clean, isStatus⟩ | ⟨flawed, isStatus⟩ <;> simp [*]

theorem status_eq_problems_iff : ds.status = .problems ↔ ds.isSuccess = false := by
  rcases ds.status_eq_or with ⟨clean, isStatus⟩ | ⟨flawed, isStatus⟩ <;> simp [*]

theorem status_ne_failure (ds : Diagnostics) : ds.status ≠ .failure := by
  rcases ds.status_eq_or with ⟨-, isStatus⟩ | ⟨-, isStatus⟩ <;> simp [isStatus]

theorem status_ne_brokenOff (ds : Diagnostics) : ds.status ≠ .brokenOff := by
  rcases ds.status_eq_or with ⟨-, isStatus⟩ | ⟨-, isStatus⟩ <;> simp [isStatus]

end Diagnostics

/-- A run told of its problems by the given report. If it failed it told why, after the report, and
otherwise it told nothing else. -/
inductive Ending.Tells (report : String) : Ending → Prop where
  | completed {status : ExitStatus} (notFailed : status ≠ .failure) : Tells report ⟨report, status⟩
  | failed (message : String) : Tells report ⟨report ++ failureLine message, .failure⟩

namespace Plan

variable {t : FileTree} {p : Plan} {a : Artifact}

/-- The tree and the ending both come from delivering the plan's files. -/
theorem perform_eq (t : FileTree) (p : Plan) :
    p.perform t = ((t.deliver p.artifacts).1, p.ending (t.deliver p.artifacts).2) := rfl

/-- A plan all of whose files can be written ends as planned. -/
theorem perform_of_takes (takes : ∀ a ∈ p.artifacts, t.Takes a.path a.text) :
    p.perform t = ((t.deliver p.artifacts).1, ⟨p.report, p.status⟩) := by
  rw [perform_eq, FileTree.deliver_eq_none_iff.mpr takes]
  rfl

/-- A plan not all of whose files can be written ends in failure. -/
theorem exists_perform_of_not_takes (fails : ¬ ∀ a ∈ p.artifacts, t.Takes a.path a.text) :
    ∃ message, p.perform t =
      ((t.deliver p.artifacts).1, ⟨p.report ++ failureLine message, .failure⟩) := by
  obtain ⟨message, complains⟩ :=
    Option.ne_none_iff_exists'.mp (mt FileTree.deliver_eq_none_iff.mp fails)
  exact ⟨message, by rw [perform_eq, complains]; rfl⟩

/-- A plan for one file leaves what writing it leaves. -/
theorem fst_perform_of_artifacts_eq_singleton (isOnly : p.artifacts = [a]) :
    (p.perform t).1 = (t.write a.path a.text).1 := by
  rw [perform_eq, isOnly]
  by_cases takes : t.Takes a.path a.text
  · rw [FileTree.deliver_cons_of_takes takes, FileTree.deliver_nil]
  · obtain ⟨message, ends⟩ := FileTree.exists_deliver_cons_of_not_takes takes []
    rw [ends]

end Plan

end Stencil
