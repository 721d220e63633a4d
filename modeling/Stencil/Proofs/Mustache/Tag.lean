import Mathlib.Data.List.TakeWhile
import Stencil.Mustache.Tag
import Stencil.Mustache.Verbatim

/-!
# What a tag means

The first character of a tag's text tells its kind, if it is no blank. A text that begins a value,
whether or not blanks come first, means the value that it names, and with an ampersand before it the
same value, not escaped.

## Main results

* `Text.trim_surround`: blanks around a text are dropped
* `Tag.read_of_beginsValue`, `Tag.read_ampersand`: the two forms of a value
* `beginsValue_of_append`: what a value may begin with
-/

namespace Stencil

/-! ### Blanks around text -/

namespace Text

variable {c : Char} {s before after : List Char}

theorem trimStart_append (blank : before.all isBlank = true) (s : List Char) :
    trimStart (before ++ s) = trimStart s :=
  List.dropWhile_append_of_pos (List.all_eq_true.mp blank)

theorem trimStart_cons (plain : isBlank c = false) (s : List Char) : trimStart (c :: s) = c :: s :=
  List.dropWhile_cons_of_neg (by simp [plain])

theorem trimEnd_append (blank : after.all isBlank = true) (s : List Char) :
    trimEnd (s ++ after) = trimEnd s := by
  have reversed : ∀ c ∈ after.reverse, isBlank c = true := by
    rw [← List.all_eq_true, List.all_reverse]
    exact blank
  rw [trimEnd, List.reverse_append, List.dropWhile_append_of_pos reversed, trimEnd]

theorem trimEnd_of_getLast? (last : s.getLast? = some c) (plain : isBlank c = false) :
    trimEnd s = s := by
  obtain ⟨s, rfl⟩ := List.getLast?_eq_some_iff.mp last
  rw [trimEnd, List.reverse_append, List.reverse_singleton, List.singleton_append,
    List.dropWhile_cons_of_neg (by simp [plain]), List.reverse_cons, List.reverse_reverse]

/-- Blanks around a text without blanks are dropped. -/
theorem trim_surround (blankBefore : before.all isBlank = true)
    (blankAfter : after.all isBlank = true) (nonempty : s ≠ [])
    (plain : ∀ c ∈ s, isBlank c = false) : trim (before ++ s ++ after) = s := by
  obtain ⟨c, others, rfl⟩ := List.exists_cons_of_ne_nil nonempty
  have last := List.getLast?_eq_some_getLast nonempty
  rw [trim, List.append_assoc, trimStart_append blankBefore, List.cons_append,
    trimStart_cons (plain c List.mem_cons_self), ← List.cons_append, trimEnd_append blankAfter,
    trimEnd_of_getLast? last (plain _ (List.getLast_mem nonempty))]

theorem trim_cons_ne_nil (plain : isBlank c = false) (s : List Char) : trim (c :: s) ≠ [] := by
  rw [trim, trimStart_cons plain, trimEnd, Ne, List.reverse_eq_nil_iff, List.dropWhile_eq_nil_iff]
  intro allBlank
  have isBlank := allBlank c (List.mem_reverse.mpr List.mem_cons_self)
  rw [plain] at isBlank
  cases isBlank

end Text

namespace Mustache

open Text

variable {c : Char} {s t : List Char}

/-! ### What begins a value -/

theorem isBlank_of_mem_sigils (isSigil : c ∈ sigils) : isBlank c = false := by
  simp only [sigils, List.mem_cons, List.not_mem_nil, or_false] at isSigil
  rcases isSigil with rfl | rfl | rfl | rfl | rfl | rfl | rfl | rfl <;> decide

theorem beginsValue_cons (plain : isBlank c = false) (s : List Char) :
    beginsValue (c :: s) = !sigils.contains c := by
  rw [beginsValue, trimStart_cons plain]

theorem not_beginsValue_of_mem_sigils (isSigil : c ∈ sigils) (s : List Char) :
    beginsValue (c :: s) = false := by
  rw [beginsValue_cons (isBlank_of_mem_sigils isSigil), List.contains_iff_mem.mpr isSigil]
  rfl

/-- What a value begins with may begin a value. -/
theorem beginsValue_of_append (begins : beginsValue (s ++ t) = true) : beginsValue s = true := by
  unfold beginsValue at begins ⊢
  cases isTrimmed : trimStart s with
  | nil => rfl
  | cons c rest =>
    have isAppended : trimStart (s ++ t) = c :: (rest ++ t) := by
      have found : s.dropWhile isBlank = c :: rest := isTrimmed
      rw [trimStart, List.dropWhile_append, found]
      rfl
    rw [isAppended] at begins
    exact begins

/-! ### The two forms of a value -/

/-- Text that begins a value means that value, and it is escaped. -/
theorem Tag.read_of_beginsValue (begins : beginsValue s = true) :
    Tag.read s = (readPath s).map (.value · true) := by
  unfold Tag.read
  split
  · rename_i blank
    rw [readPath, trimmedName, List.isEmpty_iff.mp blank]
    rfl
  · -- The first character is no sigil, so none of the special forms applies.
    have noSigil (c : Char) (rest : List Char) (isHead : s = c :: rest) : c ∉ sigils := by
      rintro isSigil
      rw [isHead, not_beginsValue_of_mem_sigils isSigil] at begins
      cases begins
    split
    case h_9 => rfl
    all_goals exact absurd (by decide) (noSigil _ _ rfl)

/-- With an ampersand before it, a value is not escaped. -/
theorem Tag.read_ampersand (s : List Char) :
    Tag.read ('&' :: s) = (readPath s).map (.value · false) := by
  unfold Tag.read
  have nonblank : ¬ (trim ('&' :: s)).isEmpty = true := by
    rw [List.isEmpty_iff]
    exact trim_cons_ne_nil (by decide) s
  rw [if_neg nonblank]
  rfl

end Mustache

end Stencil
