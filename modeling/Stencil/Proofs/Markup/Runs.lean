import Mathlib.Data.List.Chain
import Stencil.Markup.Element

/-!
# Runs of character data

A list of things, some of which are character data, falls into runs: character data that stands next
to character data belongs to one run, and the run has the line on which it begins. Joining makes one
entry of each run. It can be done from either end: the definition looks at the first entry and what
comes of the others, while a builder that takes in one entry after the other looks at the last one.

## Main definitions

* `HasText`: kinds of things that character data is among
* `joinTexts`: each run of character data in one piece
* `addLast`: joins one more entry at the end
* `Apart`: two things that are not both character data

## Main results

* `joinTexts_append`: entries can be joined one after the other at the end
* `isChain_joinTexts`: no character data is left next to character data
-/

namespace Stencil.Markup

/-- Kinds of things that character data is among. -/
class HasText (α : Type) where
  text : String → Nat → α
  text? : α → Option (String × Nat)
  text?_text (value : String) (line : Nat) : text? (text value line) = some (value, line)

attribute [simp] HasText.text?_text

instance : HasText Node where
  text := .text
  text?
    | .text value line => some (value, line)
    | .element _ _ => none
  text?_text _ _ := rfl

variable {α : Type} [HasText α]

open HasText

/-- Two neighbours: in one piece if both are character data. -/
def meet (a b : α) : List α :=
  match text? a, text? b with
  | some (value, line), some (more, _) => [text (value ++ more) line]
  | _, _ => [a, b]

/-- Joins an entry to the first one of a list. -/
def consText (a : α) : List α → List α
  | [] => [a]
  | b :: l => meet a b ++ l

/-- The entries of a list, each run of character data in one piece. -/
def joinTexts : List α → List α
  | [] => []
  | a :: l => consText a (joinTexts l)

/-- Joins an entry to the last one of a list. -/
def addLast : List α → α → List α
  | [], b => [b]
  | [a], b => meet a b
  | a :: c :: l, b => a :: addLast (c :: l) b

variable {a b c : α} {l : List α}

theorem meet_of_left (noText : text? a = none) : meet a b = [a, b] := by
  simp only [meet, noText]

theorem meet_of_right (noText : text? b = none) : meet a b = [a, b] := by
  cases left : text? a with
  | none => exact meet_of_left left
  | some run => simp only [meet, left, noText]

theorem meet_of_texts {value more : String} {line other : Nat}
    (left : text? a = some (value, line)) (right : text? b = some (more, other)) :
    meet a b = [text (value ++ more) line] := by
  simp only [meet, left, right]

theorem meet_ne_nil (a b : α) : meet a b ≠ [] := by
  unfold meet
  split <;> simp

/-- Only the last entry matters to what is joined at the end. -/
theorem addLast_append (before : List α) {after : List α} (nonempty : after ≠ []) (b : α) :
    addLast (before ++ after) b = before ++ addLast after b := by
  induction before with
  | nil => rfl
  | cons a before ih =>
    obtain ⟨c, l, isCons⟩ := List.exists_cons_of_ne_nil
      (List.append_ne_nil_of_right_ne_nil before nonempty)
    rw [List.cons_append, isCons, addLast, ← isCons, ih, List.cons_append]

/-- What is no character data is added at the end as it is. -/
theorem addLast_of_no_text (noText : text? b = none) (l : List α) : addLast l b = l ++ [b] := by
  rcases List.eq_nil_or_concat l with rfl | ⟨before, a, rfl⟩
  · rfl
  · rw [List.concat_eq_append, addLast_append before (by simp), addLast, meet_of_right noText]
    simp

/-- Joining at one end does not disturb joining at the other. -/
theorem consText_addLast (a : α) (l : List α) (b : α) :
    consText a (addLast l b) = addLast (consText a l) b := by
  match l with
  | [] => simp [consText, addLast]
  | [c] =>
    -- Three entries meet: all hangs on which of them are character data.
    cases first : text? a with
    | none =>
      obtain ⟨d, rest, isCons⟩ := List.exists_cons_of_ne_nil (meet_ne_nil c b)
      simp only [addLast, consText, isCons, meet_of_left first, List.append_nil]
      simp
    | some start =>
      cases middle : text? c with
      | none => simp [addLast, consText, meet_of_left middle, meet_of_right middle]
      | some run =>
        cases last : text? b with
        | none =>
          simp only [addLast, consText, meet_of_right last, meet_of_texts first middle,
            List.append_nil, List.singleton_append]
        | some stop =>
          simp [addLast, consText, meet_of_texts first middle, meet_of_texts middle last,
            meet_of_texts first (text?_text _ _), meet_of_texts (text?_text _ _) last,
            String.append_assoc]
  | c :: d :: l =>
    rw [addLast, consText, consText, addLast_append _ (List.cons_ne_nil d l)]

theorem joinTexts_concat (l : List α) (b : α) :
    joinTexts (l ++ [b]) = addLast (joinTexts l) b := by
  induction l with
  | nil => rfl
  | cons a l ih => rw [List.cons_append, joinTexts, ih, consText_addLast, joinTexts]

/-- Entries can be joined one after the other at the end. -/
theorem joinTexts_append (l l' : List α) :
    joinTexts (l ++ l') = l'.foldl addLast (joinTexts l) := by
  induction l' generalizing l with
  | nil => rw [List.append_nil, List.foldl_nil]
  | cons b l' ih => rw [List.append_cons, ih, joinTexts_concat, List.foldl_cons]

/-! ### Neighbours -/

/-- One of two things is no character data. -/
def Apart (a b : α) : Prop := text? a = none ∨ text? b = none

/-- Once runs are joined, no character data stands next to character data. -/
theorem isChain_joinTexts (l : List α) : (joinTexts l).IsChain Apart := by
  induction l with
  | nil => exact .nil
  | cons a l ih =>
    rw [joinTexts]
    cases isRest : joinTexts l with
    | nil => exact .singleton a
    | cons b rest =>
      rw [isRest] at ih
      rw [consText]
      cases first : text? a with
      | none =>
        rw [meet_of_left first]
        exact .cons_cons (.inl first) ih
      | some run =>
        cases second : text? b with
        | none =>
          rw [meet_of_right second]
          exact .cons_cons (.inr second) ih
        | some more =>
          -- What comes after `b` is no character data, and the run ends where `b` ended.
          rw [meet_of_texts first second, List.singleton_append]
          refine ih.imp_head fun apart => .inr ?_
          rw [Apart, second] at apart
          exact apart.resolve_left (Option.some_ne_none more)

end Stencil.Markup
