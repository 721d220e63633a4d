/-!
# Splitting a text at a character

The parts of a text are what stands between the occurrences of a separator. There is always at
least one part, and parts may be empty.
-/

namespace Stencil.Text

/-- The parts of a text between the occurrences of a character. -/
def splitAt (separator : Char) : List Char → List (List Char)
  | [] => [[]]
  | c :: s =>
    if c = separator then [] :: splitAt separator s
    else
      match splitAt separator s with
      | part :: parts => (c :: part) :: parts
      | [] => [[c]]

theorem splitAt_ne_nil (separator : Char) (s : List Char) : splitAt separator s ≠ [] := by
  cases s with
  | nil => simp [splitAt]
  | cons c s =>
    rw [splitAt]
    split
    · simp
    · split <;> simp

/-- No part holds the separator. -/
theorem not_mem_of_mem_splitAt {separator : Char} {s part : List Char}
    (h : part ∈ splitAt separator s) : separator ∉ part := by
  induction s generalizing part with
  | nil =>
    rw [splitAt, List.mem_singleton] at h
    simp [h]
  | cons c s ih =>
    rw [splitAt] at h
    split at h
    · rcases List.mem_cons.1 h with rfl | h
      · simp
      · exact ih h
    · rename_i ne
      split at h
      · rename_i first parts found
        rcases List.mem_cons.1 h with rfl | h
        · have := ih (found ▸ List.mem_cons_self)
          simp [this, Ne.symm ne]
        · exact ih (found ▸ List.mem_cons_of_mem _ h)
      · rename_i found
        exact absurd found (splitAt_ne_nil separator s)

theorem splitAt_of_not_mem {separator : Char} {s : List Char} (absent : separator ∉ s) :
    splitAt separator s = [s] := by
  induction s with
  | nil => rfl
  | cons c s ih =>
    have first : c ≠ separator := fun same => absent (same ▸ List.mem_cons_self)
    have rest := ih fun member => absent (List.mem_cons_of_mem c member)
    rw [splitAt, if_neg first, rest]

/-- A separator parts a text: what is before it and what is after it are split one by one. -/
theorem splitAt_append_cons (separator : Char) (s t : List Char) :
    splitAt separator (s ++ separator :: t) = splitAt separator s ++ splitAt separator t := by
  induction s with
  | nil => simp [splitAt]
  | cons c s ih =>
    rw [List.cons_append, splitAt, splitAt, ih]
    by_cases first : c = separator
    · rw [if_pos first, if_pos first, List.cons_append]
    · -- The part that `c` begins is the first one of `s`, and there is one.
      obtain ⟨part, parts, isCons⟩ := List.exists_cons_of_ne_nil (splitAt_ne_nil separator s)
      rw [if_neg first, if_neg first, isCons]
      rfl

/-- Texts that each end with a separator are split one by one. -/
theorem splitAt_flatMap_append {α : Type} (separator : Char) (part : α → List Char) (l : List α)
    (t : List Char) :
    splitAt separator ((l.flatMap fun a => part a ++ [separator]) ++ t) =
      (l.flatMap fun a => splitAt separator (part a)) ++ splitAt separator t := by
  induction l with
  | nil => rfl
  | cons a l ih =>
    rw [List.flatMap_cons, List.flatMap_cons, List.append_assoc, List.append_assoc,
      List.append_assoc, List.singleton_append, splitAt_append_cons, ih]

end Stencil.Text
