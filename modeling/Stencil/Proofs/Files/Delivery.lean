import Stencil.Files.Artifact
import Stencil.Proofs.Files.Writing

/-!
# Delivering artifacts

Artifacts are written one after the other, up to the first that cannot be. Since writing one file
decides neither where other paths lead nor how much room there is, all of them are delivered exactly
if each of them could have been written at the beginning. An artifact that was delivered is found at
its path afterwards, unless a later one went to the same file; of one that broke off a beginning is
found; and every file to which no artifact goes holds what it held.

## Main results

* `FileTree.deliver_eq_none_iff`: when all artifacts are delivered
* `FileTree.fst_deliver_of_not_takes`: where delivering ends
* `FileTree.contents_deliver`: what is found at the paths to an artifact
* `FileTree.contents_deliver_of_breaksOff`: what is found of an artifact that broke off
* `FileTree.file?_deliver`: the other files
-/

namespace Stencil

namespace FileTree

variable {t : FileTree} {l : Location} {a : Artifact} {as before : List Artifact}
  {path text : String}

@[simp] theorem deliver_nil (t : FileTree) : t.deliver [] = (t, none) := rfl

theorem deliver_cons_of_takes (takes : t.Takes a.path a.text) (as : List Artifact) :
    t.deliver (a :: as) = (t.write a.path a.text).1.deliver as := by
  obtain ⟨l, leads, -⟩ := takes_iff.mp takes
  simp only [deliver, takes.write_eq leads]

theorem exists_deliver_cons_of_not_takes (fails : ¬ t.Takes a.path a.text) (as : List Artifact) :
    ∃ message, t.deliver (a :: as) = ((t.write a.path a.text).1, some message) := by
  obtain ⟨fault, isFault⟩ := Option.ne_none_iff_exists'.mp fails
  have ends : t.write a.path a.text = ((t.write a.path a.text).1, some fault) :=
    Prod.ext rfl isFault
  exact ⟨a.failure fault, by rw [deliver, ends]⟩

/-- All artifacts are delivered exactly if each of them can be written. -/
theorem deliver_eq_none_iff : (t.deliver as).2 = none ↔ ∀ a ∈ as, t.Takes a.path a.text := by
  induction as generalizing t with
  | nil => simp
  | cons a as ih =>
    rw [List.forall_mem_cons]
    by_cases takes : t.Takes a.path a.text
    · -- the others are written to another tree, which takes the same texts
      simp [deliver_cons_of_takes takes, ih, takes_write_iff, takes]
    · obtain ⟨message, ends⟩ := exists_deliver_cons_of_not_takes takes as
      simp [ends, takes]

/-- What holds of a tree and still holds once any of the artifacts was written holds after
delivering. -/
theorem deliver_induction (Holds : FileTree → Prop) (holds : Holds t)
    (preserves : ∀ a ∈ as, ∀ left, Holds left → Holds (left.write a.path a.text).1) :
    Holds (t.deliver as).1 := by
  induction as generalizing t with
  | nil => exact holds
  | cons a as ih =>
    obtain ⟨first, rest⟩ := List.forall_mem_cons.mp preserves
    by_cases takes : t.Takes a.path a.text
    · rw [deliver_cons_of_takes takes]
      exact ih (first t holds) rest
    · obtain ⟨message, ends⟩ := exists_deliver_cons_of_not_takes takes as
      rw [ends]
      exact first t holds

/-- Delivering does not decide where writing leads. -/
theorem target_deliver_eq_ok_iff : (t.deliver as).1.target path = .ok l ↔ t.target path = .ok l :=
  deliver_induction (fun left => left.target path = .ok l ↔ t.target path = .ok l) Iff.rfl
    fun _ _ _ same => target_write_eq_ok_iff.trans same

theorem takes_deliver_iff : (t.deliver as).1.Takes path text ↔ t.Takes path text :=
  deliver_induction (fun left => left.Takes path text ↔ t.Takes path text) Iff.rfl
    fun _ _ _ same => takes_write_iff.trans same

theorem breaksOff_deliver_iff : (t.deliver as).1.BreaksOff path text ↔ t.BreaksOff path text := by
  simp only [BreaksOff, target_deliver_eq_ok_iff, takes_deliver_iff]

/-- A file to which no artifact goes holds what it held. -/
theorem file?_deliver (others : ∀ a ∈ as, t.target a.path ≠ .ok l) :
    (t.deliver as).1.file? l = t.file? l := by
  -- the files to which the artifacts go are told by the tree at each step, so they are carried along
  refine (deliver_induction (fun left => (∀ a ∈ as, left.target a.path ≠ .ok l) ∧
    left.file? l = t.file? l) ⟨others, rfl⟩ ?_).2
  rintro a member left ⟨elsewhere, same⟩
  refine ⟨fun b isOther => mt target_write_eq_ok_iff.mp (elsewhere b isOther), ?_⟩
  rw [file?_write (elsewhere a member), same]

/-- Once the first artifacts are delivered, the others are written to what came of it. -/
theorem deliver_append (complete : (t.deliver before).2 = none) (later : List Artifact) :
    t.deliver (before ++ later) = (t.deliver before).1.deliver later := by
  induction before generalizing t with
  | nil => rfl
  | cons a before ih =>
    have takes : t.Takes a.path a.text := deliver_eq_none_iff.mp complete a List.mem_cons_self
    rw [deliver_cons_of_takes takes] at complete
    rw [List.cons_append, deliver_cons_of_takes takes, deliver_cons_of_takes takes, ih complete]

/-- Where one artifact cannot be written, delivering ends. -/
theorem fst_deliver_of_not_takes (before later : List Artifact)
    (complete : (t.deliver before).2 = none) (fails : ¬ t.Takes a.path a.text) :
    (t.deliver (before ++ a :: later)).1 = ((t.deliver before).1.write a.path a.text).1 := by
  rw [deliver_append complete]
  obtain ⟨message, ends⟩ :=
    exists_deliver_cons_of_not_takes (mt takes_deliver_iff.mp fails) later
  rw [ends]

/-- What was delivered is found at every path to its file, if nothing later goes there. -/
theorem contents_deliver (before later : List Artifact)
    (complete : (t.deliver (before ++ [a])).2 = none)
    (others : ∀ b ∈ later, t.target b.path ≠ t.target a.path)
    (same : t.target path = t.target a.path) :
    (t.deliver (before ++ a :: later)).1.contents path = .ok (.text a.text) := by
  obtain ⟨ofBefore, takes⟩ := List.forall_mem_append.mp (deliver_eq_none_iff.mp complete)
  have takesThen : (t.deliver before).1.Takes a.path a.text :=
    takes_deliver_iff.mpr (takes a List.mem_cons_self)
  obtain ⟨l, leadsThen, -⟩ := takes_iff.mp takesThen
  have leads := target_deliver_eq_ok_iff.mp leadsThen
  refine contents_of_target (target_deliver_eq_ok_iff.mpr (same.trans leads)) ?_
  -- it was put there after what stands before it, and nothing after it goes to this place
  rw [deliver_append (deliver_eq_none_iff.mpr ofBefore), deliver_cons_of_takes takesThen,
    takesThen.write_eq leadsThen, file?_deliver, file?_put_self]
  intro b member isSame
  rw [target_put_eq_ok_iff, target_deliver_eq_ok_iff] at isSame
  exact others b member (isSame.trans leads.symm)

/-- Of an artifact that broke off, a beginning is found. -/
theorem contents_deliver_of_breaksOff (before later : List Artifact)
    (complete : (t.deliver before).2 = none) (breaksOff : t.BreaksOff a.path a.text) :
    ∃ content, (t.deliver (before ++ a :: later)).1.contents a.path = .ok content ∧
      content.IsBeginningOf a.text := by
  rw [fst_deliver_of_not_takes before later complete breaksOff.2]
  exact contents_write_of_breaksOff (breaksOff_deliver_iff.mpr breaksOff)

end FileTree

end Stencil
