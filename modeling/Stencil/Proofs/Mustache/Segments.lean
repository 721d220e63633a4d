import Stencil.Proofs.Mustache.Outline
import Stencil.Proofs.Mustache.Tag
import Stencil.Proofs.Mustache.Written

/-!
# Segments of a template's text

The text of a template is taken apart into the segments it was put together from: literal text opens
no tag, and a mark ends with the braces after it. Putting ampersands into the text puts them into
the marks that are values and consist of a name alone, and changes nothing else.

## Main definitions

* `Segment.verbatim`: a segment that is no escaped value
* `Segment.pieces`: the pieces that segments make up

## Main results

* `verbatim_segments`: the text of a template with ampersands
* `Piece.scanFrom_segments`: the pieces of a template
* `pieces_verbatim`: the pieces of a template with ampersands
-/

namespace Stencil.Mustache

open Stencil.Text

/-! ### Text that opens no tag -/

theorem not_infix_cons {c : Char} {s : List Char} (single : c = '\x7b' → s.head? ≠ some '\x7b')
    (closed : ¬ ['\x7b', '\x7b'] <:+: s) : ¬ ['\x7b', '\x7b'] <:+: c :: s := by
  intro braces
  rcases List.infix_cons_iff.mp braces with ⟨rest, same⟩ | inside
  · cases same
    exact single rfl rfl
  · exact closed inside

namespace Written.Unopened

variable {c : Char} {s t u v : List Char}

theorem tail (unopened : Unopened (c :: s)) : Unopened s := by
  refine ⟨fun braces => unopened.1 (List.infix_cons braces), fun last => unopened.2 ?_⟩
  rw [List.getLast?_cons, last]
  rfl

/-- What follows a brace is another character. -/
theorem exists_cons (unopened : Unopened ('\x7b' :: s)) :
    ∃ d rest, s = d :: rest ∧ d ≠ '\x7b' := by
  cases s with
  | nil => exact absurd rfl unopened.2
  | cons d rest =>
    refine ⟨d, rest, rfl, ?_⟩
    rintro rfl
    exact unopened.1 (List.IsPrefix.isInfix ⟨rest, rfl⟩)

theorem of_not_mem (noBrace : '\x7b' ∉ s) : Unopened s :=
  ⟨fun braces => noBrace (braces.subset List.mem_cons_self),
    fun last => noBrace (List.mem_of_getLast? last)⟩

theorem cons (single : c = '\x7b' → ∃ d ∈ s.head?, d ≠ '\x7b') (unopened : Unopened s) :
    Unopened (c :: s) := by
  refine ⟨not_infix_cons (fun isBrace head => ?_) unopened.1, ?_⟩
  · obtain ⟨d, isHead, ne⟩ := single isBrace
    exact ne (Option.some.inj (isHead.symm.trans head))
  · cases s with
    | nil =>
      rintro ⟨⟩
      obtain ⟨d, isHead, -⟩ := single rfl
      cases isHead
    | cons d s =>
      rw [List.getLast?_cons_cons]
      exact unopened.2

/-- A single brace opens nothing if something follows it. -/
theorem cons_of_not_mem (nonempty : s ≠ []) (noBrace : '\x7b' ∉ s) : Unopened ('\x7b' :: s) := by
  obtain ⟨d, rest, rfl⟩ := List.exists_cons_of_ne_nil nonempty
  refine (of_not_mem noBrace).cons fun _ => ⟨d, rfl, ?_⟩
  rintro rfl
  exact noBrace List.mem_cons_self

/-- The first two braces of a text stand at one place. -/
theorem append_inj (first : Unopened s) (second : Unopened t)
    (same : s ++ '\x7b' :: '\x7b' :: u = t ++ '\x7b' :: '\x7b' :: v) : s = t ∧ u = v := by
  induction s generalizing t with
  | nil =>
    cases t with
    | nil =>
      cases same
      exact ⟨rfl, rfl⟩
    | cons d t =>
      obtain ⟨rfl, rest⟩ := List.cons.inj same
      obtain ⟨e, t, rfl, ne⟩ := second.exists_cons
      exact absurd (List.cons.inj rest).1.symm ne
  | cons c s ih =>
    cases t with
    | nil =>
      obtain ⟨rfl, rest⟩ := List.cons.inj same
      obtain ⟨e, s, rfl, ne⟩ := first.exists_cons
      exact absurd (List.cons.inj rest).1 ne
    | cons d t =>
      obtain ⟨rfl, rest⟩ := List.cons.inj same
      obtain ⟨rfl, rfl⟩ := ih first.tail second.tail rest
      exact ⟨rfl, rfl⟩

end Written.Unopened

open Written

variable {c : Char} {s : List Char} {braced : Bool}

/-! ### Putting in ampersands -/

theorem verbatim_cons (single : c = '\x7b' → s.head? ≠ some '\x7b') :
    verbatim (c :: s) = c :: verbatim s := by
  rw [verbatim]
  rintro rest rfl rfl
  exact single rfl rfl

/-- No ampersand is put into text that opens no tag. -/
theorem verbatim_append (unopened : Unopened s) (rest : List Char) :
    verbatim (s ++ rest) = s ++ verbatim rest := by
  induction s with
  | nil => rfl
  | cons c s ih =>
    rw [List.cons_append, verbatim_cons, ih unopened.tail, List.cons_append]
    rintro rfl
    obtain ⟨d, others, rfl, ne⟩ := unopened.exists_cons
    simpa using ne

theorem head?_verbatim (s : List Char) : (verbatim s).head? = s.head? := by
  fun_cases verbatim s <;> rfl

theorem endsLine_cons (c : Char) (s : List Char) :
    Piece.endsLine (c :: s) = (decide (c = '\n') || decide (c = '\r' ∧ s.head? = some '\n')) := by
  unfold Piece.endsLine
  split
  · simp_all
  · simp_all
  · simp_all
  · rename_i notNil notNewline notReturn
    have isOther : c ≠ '\n' := fun same => notNewline s (by rw [same])
    have isApart : ¬ (c = '\r' ∧ s.head? = some '\n') := by
      rintro ⟨isReturn, isHead⟩
      obtain ⟨rest, rfl⟩ := List.head?_eq_some_iff.mp isHead
      exact notReturn rest (by rw [isReturn])
    rw [decide_eq_false isOther, decide_eq_false isApart]
    rfl

/-- Ampersands stand after braces only, so a line ends where it ended. -/
theorem endsLine_verbatim (s : List Char) : Piece.endsLine (verbatim s) = Piece.endsLine s := by
  fun_cases verbatim s with
  | case1 s begins => rfl
  | case2 s begins => rfl
  | case3 c s single => rw [endsLine_cons, endsLine_cons, head?_verbatim]
  | case4 => rfl

/-! ### Marks -/

namespace Written

theorem Name.not_isBlank (name : Name) : ∀ c ∈ name.chars, isBlank c = false := by
  intro c isMember
  have plain := List.all_eq_true.mp name.plain c isMember
  simp only [isNameChar, Bool.and_eq_true, Bool.not_eq_true'] at plain
  exact plain.1

theorem Name.not_mem_reserved (name : Name) : ∀ c ∈ name.chars, c ∉ reserved := by
  intro c isMember isReserved
  have plain := List.all_eq_true.mp name.plain c isMember
  simp only [isNameChar, Bool.and_eq_true, Bool.not_eq_true'] at plain
  rw [List.contains_iff_mem.mpr isReserved] at plain
  cases plain.2

variable (name : Name) (margins : Margins)

theorem Margins.readPath_around : readPath (margins.around name) = .ok name.path := by
  have trimmed : trim (margins.around name) = name.chars :=
    trim_surround margins.blankBefore margins.blankAfter name.nonempty name.not_isBlank
  obtain ⟨c, others, isName⟩ := List.exists_cons_of_ne_nil name.nonempty
  rw [readPath, trimmedName, trimmed, Name.path, isName]
  rfl

/-- A name, with its margins, has no character that is reserved and no blank. -/
theorem Margins.not_mem_around {c : Char} (isReserved : c ∈ reserved)
    (plain : isBlank c = false) : c ∉ margins.around name := by
  intro isMember
  have notBlank (s : List Char) (blank : s.all isBlank = true) : c ∉ s := by
    intro isMember
    rw [List.all_eq_true.mp blank c isMember] at plain
    cases plain
  rcases List.mem_append.mp isMember with front | isAfter
  · rcases List.mem_append.mp front with isBefore | isName
    · exact notBlank _ margins.blankBefore isBefore
    · exact name.not_mem_reserved c isName isReserved
  · exact notBlank _ margins.blankAfter isAfter

/-- A name begins a value, whatever follows it. -/
theorem Margins.beginsValue_around (rest : List Char) :
    beginsValue (margins.around name ++ rest) = true := by
  obtain ⟨c, others, isName⟩ := List.exists_cons_of_ne_nil name.nonempty
  have isFirst : c ∈ name.chars := isName ▸ List.mem_cons_self
  have areReserved : ∀ c ∈ sigils, c ∈ reserved := by simp [sigils, reserved]
  have notSigil : c ∉ sigils := fun isSigil =>
    name.not_mem_reserved c isFirst (areReserved c isSigil)
  rw [beginsValue, around, List.append_assoc, List.append_assoc,
    trimStart_append margins.blankBefore,
    isName, List.cons_append, trimStart_cons (name.not_isBlank c isFirst)]
  simpa using notSigil

namespace Mark

/-- Whether a mark is a value that is asked for by its name alone. -/
def isPlain : Mark → Bool
  | value .plain _ _ => true
  | _ => false

/-- A mark in which an ampersand asks for the value, if its name alone did. -/
def verbatim : Mark → Mark
  | value .plain name margins => value .ampersand name margins
  | mark => mark

variable (m : Mark)

/-- Two braces and a mark begin a value exactly if its name alone asks for it. -/
theorem beginsValue_content (rest : List Char) : beginsValue (m.content ++ rest) = m.isPlain := by
  cases m with
  | comment remark | closing name margins => exact not_beginsValue_of_mem_sigils (by decide) _
  | opening inverted name margins =>
    cases inverted <;> exact not_beginsValue_of_mem_sigils (by decide) _
  | value form name margins =>
    cases form with
    | plain => exact margins.beginsValue_around name rest
    | ampersand | braces => exact not_beginsValue_of_mem_sigils (by decide) _

theorem content_verbatim : m.verbatim.content = (if m.isPlain then ['&'] else []) ++ m.content := by
  cases m with
  | value form name margins => cases form <;> rfl
  | comment remark | opening inverted name margins | closing name margins => rfl

theorem tag_verbatim : m.verbatim.tag = m.tag.mapEscaped fun _ => false := by
  cases m with
  | value form name margins => cases form <;> rfl
  | comment remark | opening inverted name margins | closing name margins => rfl

/-- There are no braces in a mark, or there is one at either end of it. -/
theorem braces_content :
    ('\x7b' ∉ m.content ∧ '\x7d' ∉ m.content) ∨
      ∃ s, '\x7b' ∉ s ∧ '\x7d' ∉ s ∧ m.content = '\x7b' :: (s ++ ['\x7d']) := by
  have noOpening (name : Name) (margins : Margins) : '\x7b' ∉ margins.around name :=
    margins.not_mem_around name (by decide) (by decide)
  have noClosing (name : Name) (margins : Margins) : '\x7d' ∉ margins.around name :=
    margins.not_mem_around name (by decide) (by decide)
  cases m with
  | comment remark => exact .inl (by simp [content, remark.noOpening, remark.noClosing])
  | closing name margins =>
    exact .inl (by simp [content, noOpening name margins, noClosing name margins])
  | opening inverted name margins =>
    cases inverted <;>
      exact .inl (by simp [content, noOpening name margins, noClosing name margins])
  | value form name margins =>
    cases form with
    | plain => exact .inl ⟨noOpening name margins, noClosing name margins⟩
    | ampersand => exact .inl (by simp [content, noOpening name margins, noClosing name margins])
    | braces =>
      exact .inr ⟨margins.around name, noOpening name margins, noClosing name margins, rfl⟩

/-- A mark and the braces after it open no other tag. -/
theorem unopened_content : Unopened (m.content ++ ['\x7d', '\x7d']) := by
  rcases m.braces_content with ⟨noOpening, -⟩ | ⟨s, noOpening, -, isContent⟩
  · exact .of_not_mem (by simp [noOpening])
  · rw [isContent, List.cons_append]
    exact .cons_of_not_mem (by simp) (by simp [noOpening])

/-- A mark is read as the tag that it means. -/
theorem read_content : Tag.read m.content = .ok m.tag := by
  have nonblank (c : Char) (plain : isBlank c = false) (s : List Char) :
      ¬ (trim (c :: s)).isEmpty = true := by
    rw [List.isEmpty_iff]
    exact trim_cons_ne_nil plain s
  cases m with
  | comment remark =>
    rw [content, Tag.read, if_neg (nonblank _ (by decide) _)]
    rfl
  | closing name margins =>
    rw [content, Tag.read, if_neg (nonblank _ (by decide) _)]
    simp only [margins.readPath_around]
    rfl
  | opening inverted name margins =>
    cases inverted with
    | false =>
      change Tag.read ('#' :: margins.around name) = _
      rw [Tag.read, if_neg (nonblank _ (by decide) _)]
      simp only [margins.readPath_around]
      rfl
    | true =>
      change Tag.read ('^' :: margins.around name) = _
      rw [Tag.read, if_neg (nonblank _ (by decide) _)]
      simp only [margins.readPath_around]
      rfl
  | value form name margins =>
    cases form with
    | plain =>
      have begins : beginsValue (margins.around name) = true := by
        simpa using margins.beginsValue_around name []
      rw [content, Tag.read_of_beginsValue begins, margins.readPath_around]
      rfl
    | ampersand =>
      rw [content, Tag.read_ampersand, margins.readPath_around]
      rfl
    | braces =>
      rw [content, Tag.read, if_neg (nonblank _ (by decide) _)]
      simp only [dropLastIf, List.getLast?_concat, if_true, List.dropLast_concat,
        margins.readPath_around]
      rfl

end Mark

/-- A segment in which an ampersand asks for the value, if its name alone did. -/
def Segment.verbatim : Segment → Segment
  | .literal l => .literal l
  | .mark m => .mark m.verbatim

end Written

/-! ### Taking the text apart -/

namespace Piece

variable (reversed rest : List Char)

theorem scanFrom_text_cons (ne : c ≠ '\x7b') :
    scanFrom .braces .text reversed (c :: rest) = scanFrom .braces .text (c :: reversed) rest := by
  have goesOn : step .braces .text reversed c = .proceed .text (c :: reversed) := if_neg ne
  rw [scanFrom, goesOn]

theorem scanFrom_brace_cons (ne : c ≠ '\x7b') :
    scanFrom .braces .text reversed ('\x7b' :: c :: rest) =
      scanFrom .braces .text (c :: '\x7b' :: reversed) rest := by
  have breaksOff : step .braces (.opening ['\x7b'] '\x7b' []) reversed c =
      .proceed .text (c :: '\x7b' :: reversed) := if_neg ne
  have opens : step .braces .text reversed '\x7b' =
      .proceed (.opening ['\x7b'] '\x7b' []) reversed := rfl
  rw [scanFrom, opens]
  simp only [scanFrom, breaksOff]

/-- Two braces open a tag. -/
theorem scanFrom_braces :
    scanFrom .braces .text reversed ('\x7b' :: '\x7b' :: rest) =
      (ofText reversed ++ (scanFrom .braces (.tag false) [] rest).1,
        (scanFrom .braces (.tag false) [] rest).2) := rfl

/-- Text that opens no tag is text. -/
theorem scanFrom_literal (unopened : Unopened s) :
    scanFrom .braces .text reversed (s ++ rest) =
      scanFrom .braces .text (s.reverse ++ reversed) rest := by
  -- A brace is taken together with the character after it.
  induction length : s.length using Nat.strong_induction_on generalizing s reversed with
  | _ n ih =>
    subst length
    cases s with
    | nil => rfl
    | cons c s =>
      by_cases isBrace : c = '\x7b'
      · subst isBrace
        obtain ⟨d, s, rfl, ne⟩ := unopened.exists_cons
        rw [List.cons_append, List.cons_append, scanFrom_brace_cons _ _ ne,
          ih s.length (by simp only [List.length_cons]; omega) _ unopened.tail.tail rfl]
        simp
      · rw [List.cons_append, scanFrom_text_cons _ _ isBrace,
          ih s.length (by simp) _ unopened.tail rfl]
        simp

/-- A character that is no brace goes into the tag that is being read. -/
theorem scanFrom_tag_cons (noOpening : c ≠ '\x7b') (noClosing : c ≠ '\x7d') :
    scanFrom .braces (.tag braced) reversed (c :: rest) =
      scanFrom .braces (.tag braced) (c :: reversed) rest := by
  have goesOn : step .braces (.tag braced) reversed c = .proceed (.tag braced) (c :: reversed) := by
    simp [step, opensBrace, Delimiters.braces, noOpening, noClosing]
  rw [scanFrom, goesOn]

theorem scanFrom_tag_append (noOpening : '\x7b' ∉ s) (noClosing : '\x7d' ∉ s) :
    scanFrom .braces (.tag braced) reversed (s ++ rest) =
      scanFrom .braces (.tag braced) (s.reverse ++ reversed) rest := by
  induction s generalizing reversed with
  | nil => rfl
  | cons c s ih =>
    rw [List.mem_cons, not_or] at noOpening noClosing
    rw [List.cons_append, scanFrom_tag_cons _ _ (Ne.symm noOpening.1) (Ne.symm noClosing.1),
      ih _ noOpening.2 noClosing.2, List.reverse_cons, List.append_assoc, List.singleton_append]

/-- Two braces close a tag. -/
theorem scanFrom_close {tag : Tag} (read : Tag.read reversed.reverse = .ok tag)
    (same : delimitersAfter .braces tag = .braces) :
    scanFrom .braces (.tag false) reversed ('\x7d' :: '\x7d' :: rest) =
      (.tag tag (endsLine rest) :: (scanFrom .braces .text [] rest).1,
        (scanFrom .braces .text [] rest).2) := by
  have closes : step .braces (.tag false) reversed '\x7d' = .proceed (.closing false) reversed := by
    simp [step, opensBrace, Delimiters.braces]
  have leaves : step .braces (.closing false) reversed '\x7d' = .leaveTag := rfl
  rw [scanFrom, closes]
  simp only [scanFrom, leaves, read, same]

/-- A mark is read up to the braces after it. -/
theorem scanFrom_mark (m : Mark) :
    scanFrom .braces (.tag false) [] (m.content ++ '\x7d' :: '\x7d' :: rest) =
      (.tag m.tag (endsLine rest) :: (scanFrom .braces .text [] rest).1,
        (scanFrom .braces .text [] rest).2) := by
  have same : delimitersAfter .braces m.tag = .braces := by cases m <;> rfl
  -- All that matters is that the text of the mark is taken up to the last two braces.
  suffices taken : scanFrom .braces (.tag false) [] (m.content ++ '\x7d' :: '\x7d' :: rest) =
      scanFrom .braces (.tag false) m.content.reverse ('\x7d' :: '\x7d' :: rest) by
    rw [taken, scanFrom_close _ _ (by rw [List.reverse_reverse, m.read_content]) same]
  rcases m.braces_content with ⟨noOpening, noClosing⟩ | ⟨s, noOpening, noClosing, isContent⟩
  · rw [scanFrom_tag_append _ _ noOpening noClosing, List.append_nil]
  · have opens (s : List Char) : scanFrom .braces (.tag false) [] ('\x7b' :: s) =
        scanFrom .braces (.tag true) ['\x7b'] s := rfl
    have shuts (reversed s : List Char) :
        scanFrom .braces (.tag true) reversed ('\x7d' :: s) =
          scanFrom .braces (.tag false) ('\x7d' :: reversed) s := by
      have belongs : step .braces (.tag true) reversed '\x7d' =
          .proceed (.tag false) ('\x7d' :: reversed) := by
        simp [step, opensBrace]
      rw [scanFrom, belongs]
    rw [isContent, List.cons_append, List.append_assoc, opens,
      scanFrom_tag_append _ _ noOpening noClosing, List.singleton_append, shuts]
    simp

end Piece

/-! ### Whole templates -/

namespace Written.Segment

/-- The pieces that segments make up, given the text before them, its end first. Neighbouring
literal texts are one piece. -/
def pieces (reversed : List Char) : List Segment → List Piece
  | [] => Piece.ofText reversed
  | .literal l :: segments => pieces (l.chars.reverse ++ reversed) segments
  | .mark m :: segments => Piece.ofText reversed ++
      .tag m.tag (Piece.endsLine (segments.flatMap chars)) :: pieces [] segments

/-- The tags of the pieces are those of the marks. -/
theorem filterMap_tag?_pieces (reversed : List Char) (segments : List Segment) :
    (pieces reversed segments).filterMap Piece.tag? = segments.filterMap tag? := by
  have noTags (s : List Char) : (Piece.ofText s).filterMap Piece.tag? = [] := by
    unfold Piece.ofText
    split <;> rfl
  induction segments generalizing reversed with
  | nil => exact noTags reversed
  | cons segment segments ih =>
    cases segment with
    | literal l => exact ih (l.chars.reverse ++ reversed)
    | mark m =>
      rw [pieces, List.filterMap_append, noTags, List.nil_append]
      exact congrArg (m.tag :: ·) (ih [])

end Written.Segment

variable (segments : List Segment)

/-- The text of segments is taken apart into the pieces that they make up. -/
theorem Piece.scanFrom_segments (reversed : List Char) :
    scanFrom .braces .text reversed (segments.flatMap Segment.chars) =
      (Segment.pieces reversed segments, none) := by
  induction segments generalizing reversed with
  | nil => rfl
  | cons segment segments ih =>
    rw [List.flatMap_cons]
    cases segment with
    | literal l => rw [Segment.chars, scanFrom_literal reversed _ l.unopened, ih, Segment.pieces]
    | mark m =>
      rw [Segment.chars, List.cons_append, List.cons_append, List.append_assoc, scanFrom_braces,
        List.cons_append, List.singleton_append, scanFrom_mark, ih, Segment.pieces]

/-- Ampersands are put into the marks that are asked for by their names alone, and nowhere else. -/
theorem verbatim_segments :
    verbatim (segments.flatMap Segment.chars) =
      (segments.map Segment.verbatim).flatMap Segment.chars := by
  induction segments with
  | nil => rfl
  | cons segment segments ih =>
    rw [List.flatMap_cons, List.map_cons, List.flatMap_cons]
    cases segment with
    | literal l =>
      rw [Segment.chars, verbatim_append l.unopened, ih, Segment.verbatim, Segment.chars]
    | mark m =>
      have inside : verbatim (m.content ++ ['\x7d', '\x7d'] ++ segments.flatMap Segment.chars) =
          m.content ++ ['\x7d', '\x7d'] ++ verbatim (segments.flatMap Segment.chars) :=
        verbatim_append m.unopened_content _
      rw [Segment.chars, Segment.verbatim, Segment.chars, m.content_verbatim, ← ih]
      rw [List.cons_append, List.cons_append, verbatim, List.append_assoc, m.beginsValue_content,
        ← List.append_assoc, inside]
      cases m.isPlain <;> simp

/-- With ampersands, a template is taken apart into the same pieces, except that no value is
escaped. -/
theorem pieces_verbatim (reversed : List Char) :
    Segment.pieces reversed (segments.map Segment.verbatim) =
      (Segment.pieces reversed segments).map Piece.unescaped := by
  have sameText (s : List Char) : (Piece.ofText s).map Piece.unescaped = Piece.ofText s := by
    unfold Piece.ofText
    split <;> rfl
  induction segments generalizing reversed with
  | nil => exact (sameText reversed).symm
  | cons segment segments ih =>
    cases segment with
    | literal l => exact ih (l.chars.reverse ++ reversed)
    | mark m =>
      rw [List.map_cons, Segment.verbatim, Segment.pieces, ih, ← verbatim_segments,
        endsLine_verbatim, m.tag_verbatim, Segment.pieces, List.map_append, sameText]
      rfl

end Stencil.Mustache
