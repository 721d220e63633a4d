import Stencil.Proofs.Mustache.Segments
import Stencil.Render

/-!
# Openings and ampersands

Two braces open a tag. A text is scanned for openings from left to right: the next opening is the
first one after the braces of the opening before, so openings do not overlap, and a text falls in
only one way into what is passed over before each of them and what is left after the last. Making a
template write its values as they are adds an ampersand after some of the openings and changes
nothing else. It does so once: the ampersand stands where it keeps another one away, and it neither
opens a tag nor parts two braces.

## Main definitions

* `Openings`: a text taken apart at its openings
* `AsksValue`: what stands after an opening asks for a value by its name alone
* `Openings.marked`: the text with an ampersand at each opening that asks for a value

## Main results

* `Openings.text_injective`, `Openings.exists_text_eq`: each text is taken apart in one way
* `verbatim_text`: which ampersands are added
* `verbatim_verbatim`: nothing is added the second time
* `verbatimTemplate_openings`: all of it, for templates
-/

namespace Stencil

namespace Mustache

open Stencil.Text Written

variable {s : List Char}

/-! ### Texts taken apart -/

/-- A text taken apart at its openings: the texts that are passed over before each of them, and the
text after the last one. No two braces stand in a text that is passed over, nor does its end make up
two with those of the opening, so the scan stops at the opening and nowhere before it. -/
structure Openings where
  passed : List Literal
  last : List Char
  closed : ¬ ['\x7b', '\x7b'] <:+: last

/-- Texts with an opening after each, and the text after the last opening. -/
def Openings.join (last : List Char) : List Literal → List Char
  | [] => last
  | l :: ls => l.chars ++ '\x7b' :: '\x7b' :: join last ls

/-- The text that was taken apart. -/
def Openings.text (o : Openings) : List Char := join o.last o.passed

/-- After white space, the text ends or goes on with a character that is no sigil. -/
def AsksValue (s : List Char) : Prop := ∀ c ∈ (trimStart s).head?, c ∉ sigils

instance (s : List Char) : Decidable (AsksValue s) :=
  inferInstanceAs (Decidable (∀ c ∈ (trimStart s).head?, c ∉ sigils))

/-- As `join`, with an ampersand right after each opening that asks for a value. -/
def Openings.joinMarked (last : List Char) : List Literal → List Char
  | [] => last
  | l :: ls =>
    l.chars ++ '\x7b' :: '\x7b' ::
      ((if AsksValue (join last ls) then ['&'] else []) ++ joinMarked last ls)

/-- The text with an ampersand right after each opening that asks for a value. -/
def Openings.marked (o : Openings) : List Char := joinMarked o.last o.passed

/-- A character is followed by no brace if it begins no opening. -/
theorem head?_ne_of_single {c : Char} (single : ∀ rest, c = '\x7b' → s = '\x7b' :: rest → False) :
    c = '\x7b' → s.head? ≠ some '\x7b' := by
  intro isBrace head
  obtain ⟨rest, isCons⟩ := List.head?_eq_some_iff.mp head
  exact single rest isBrace isCons

namespace Openings

theorem join_injective {last last' : List Char} (closed : ¬ ['\x7b', '\x7b'] <:+: last)
    (closed' : ¬ ['\x7b', '\x7b'] <:+: last') {passed passed' : List Literal}
    (same : join last passed = join last' passed') : passed = passed' ∧ last = last' := by
  have opens (l : Literal) (s : List Char) :
      ['\x7b', '\x7b'] <:+: l.chars ++ '\x7b' :: '\x7b' :: s := ⟨l.chars, s, by simp⟩
  induction passed generalizing passed' with
  | nil =>
    cases passed' with
    | nil => exact ⟨rfl, same⟩
    | cons l' ls' =>
      rw [join, join] at same
      exact absurd (same ▸ opens l' _) closed
  | cons l ls ih =>
    cases passed' with
    | nil =>
      rw [join, join] at same
      exact absurd (same ▸ opens l _) closed'
    | cons l' ls' =>
      obtain ⟨chars, unopened⟩ := l
      obtain ⟨chars', unopened'⟩ := l'
      obtain ⟨rfl, others⟩ := unopened.append_inj unopened' same
      obtain ⟨rfl, rfl⟩ := ih others
      exact ⟨rfl, rfl⟩

/-- A text is taken apart in no more than one way. -/
theorem text_injective {o p : Openings} (same : o.text = p.text) : o = p := by
  obtain ⟨passed, last, closed⟩ := o
  obtain ⟨passed', last', closed'⟩ := p
  obtain ⟨rfl, rfl⟩ := join_injective closed closed' same
  rfl

/-- Every text can be taken apart. -/
theorem exists_text_eq (s : List Char) : ∃ o : Openings, o.text = s := by
  fun_induction verbatim s with
  | case1 s _ ih | case2 s _ ih =>
    obtain ⟨⟨passed, last, closed⟩, rfl⟩ := ih
    exact ⟨⟨⟨[], by decide⟩ :: passed, last, closed⟩, rfl⟩
  | case3 c s single ih =>
    obtain ⟨⟨passed, last, closed⟩, rfl⟩ := ih
    cases passed with
    | nil =>
      exact ⟨⟨[], c :: last, not_infix_cons (head?_ne_of_single single) closed⟩, rfl⟩
    | cons l ls =>
      obtain ⟨chars, unopened⟩ := l
      have longer : Unopened (c :: chars) := by
        refine unopened.cons fun isBrace => ?_
        cases chars with
        | nil => exact absurd rfl (single _ isBrace)
        | cons d chars =>
          refine ⟨d, rfl, ?_⟩
          rintro rfl
          exact single _ isBrace rfl
      exact ⟨⟨⟨c :: chars, longer⟩ :: ls, last, closed⟩, rfl⟩
  | case4 => exact ⟨⟨[], [], by decide⟩, rfl⟩

end Openings

/-! ### Which ampersands are added -/

theorem beginsValue_iff : beginsValue s = true ↔ AsksValue s := by
  unfold beginsValue AsksValue
  cases trimStart s with
  | nil => simp
  | cons c rest => simp

theorem verbatim_of_closed (closed : ¬ ['\x7b', '\x7b'] <:+: s) : verbatim s = s := by
  induction s with
  | nil => rfl
  | cons c s ih =>
    rw [verbatim_cons, ih fun braces => closed (List.infix_cons braces)]
    rintro rfl head
    obtain ⟨rest, rfl⟩ := List.head?_eq_some_iff.mp head
    exact closed ⟨[], rest, rfl⟩

/-- An ampersand is added after each opening that asks for a value, and nothing else is. -/
theorem verbatim_text (o : Openings) : verbatim o.text = o.marked := by
  obtain ⟨passed, last, closed⟩ := o
  change verbatim (Openings.join last passed) = Openings.joinMarked last passed
  induction passed with
  | nil => exact verbatim_of_closed closed
  | cons l ls ih =>
    rw [Openings.join, verbatim_append l.unopened, verbatim, ih, Openings.joinMarked]
    simp only [beginsValue_iff]
    split <;> rfl

-- Of four braces the first two are followed by a brace, and the other two by nothing.
example : verbatim ['\x7b', '\x7b', '\x7b', '\x7b'] = ['\x7b', '\x7b', '\x7b', '\x7b', '&'] := by
  decide

/-! ### Adding them twice -/

theorem head?_trimStart_verbatim (s : List Char) :
    (trimStart (verbatim s)).head? = (trimStart s).head? := by
  fun_induction verbatim s with
  | case1 s _ ih | case2 s _ ih => rfl
  | case3 c s single ih =>
    simp only [trimStart, List.dropWhile_cons] at ih ⊢
    split
    · exact ih
    · rfl
  | case4 => rfl

theorem beginsValue_verbatim (s : List Char) : beginsValue (verbatim s) = beginsValue s := by
  rw [Bool.eq_iff_iff, beginsValue_iff, beginsValue_iff, AsksValue, AsksValue,
    head?_trimStart_verbatim]

/-- What was added keeps more from being added, and braces stand where they stood. -/
theorem verbatim_verbatim (s : List Char) : verbatim (verbatim s) = verbatim s := by
  fun_induction verbatim s with
  | case1 s begins ih =>
    have isSigil : beginsValue ('&' :: verbatim s) = false :=
      not_beginsValue_of_mem_sigils (by decide) _
    have single : '&' = '\x7b' → (verbatim s).head? ≠ some '\x7b' :=
      fun isBrace => absurd isBrace (by decide)
    rw [verbatim, isSigil, if_neg Bool.false_ne_true, verbatim_cons single, ih]
  | case2 s begins ih => rw [verbatim, beginsValue_verbatim, if_neg begins, ih]
  | case3 c s single ih =>
    have noBrace := head?_ne_of_single single
    rw [← head?_verbatim s] at noBrace
    rw [verbatim_cons noBrace, ih]
  | case4 => rfl

end Mustache

/-- **Which ampersands are added.** A template falls in exactly one way into the texts that are
passed over before its openings and the text after the last. Making its values be written as they
are adds an ampersand right after each opening where, after white space, the template ends or goes
on with none of the characters that make a tag something else, and changes nothing else. Doing it
again changes nothing. -/
theorem verbatimTemplate_openings (template : String) :
    (∃ o : Mustache.Openings, o.text = template.toList ∧
        (∀ other : Mustache.Openings, other.text = template.toList → other = o) ∧
        (verbatimTemplate template).toList = o.marked) ∧
      verbatimTemplate (verbatimTemplate template) = verbatimTemplate template := by
  constructor
  · obtain ⟨o, isText⟩ := Mustache.Openings.exists_text_eq template.toList
    refine ⟨o, isText, fun other same => ?_, ?_⟩
    · exact Mustache.Openings.text_injective (same.trans isText.symm)
    · rw [verbatimTemplate, String.toList_ofList, ← isText, Mustache.verbatim_text]
  · rw [verbatimTemplate, verbatimTemplate, String.toList_ofList, Mustache.verbatim_verbatim]

end Stencil
