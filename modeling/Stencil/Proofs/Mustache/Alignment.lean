import Stencil.Proofs.Mustache.Escaped
import Stencil.Proofs.Mustache.Segments

/-!
# Where ampersands are put

Ampersands are put into a text without regard to what scanning makes of it: wherever two braces are
followed by what may begin a value. That does no harm at the beginning of a tag's text, where an
ampersand only keeps the value from being escaped, and in a comment. Anywhere else it may become
part of what is written, of a name or of a delimiter.

## Main definitions

* `Piece.Cursor`: where scanning stands, and what a character does to it
* `aligned`: all ampersands that are put into a text do no harm

## Main results

* `Piece.Cursor.Follows.next`: scanning goes on alike with and without an ampersand in a tag
* `Piece.Cursor.scan_verbatim`: the pieces of a text with and without ampersands
-/

namespace Stencil.Mustache

open Stencil.Text

namespace Piece

/-- Where scanning stands, and the delimiters in force. -/
structure Cursor where
  delimiters : Delimiters
  mode : Mode
  reversed : List Char
deriving Repr, DecidableEq

namespace Cursor

/-- Where scanning begins. -/
def start : Cursor := ⟨.braces, .text, []⟩

variable (k : Cursor)

/-- Whether scanning stands in a tag or in the delimiter that closes one. -/
def inTag : Bool :=
  match k.mode with
  | .tag _ | .closing _ => true
  | .text | .opening _ _ _ => false

/-- Whether scanning stands in a delimiter that closes a tag. -/
def isClosing : Bool :=
  match k.mode with
  | .closing _ => true
  | .text | .opening _ _ _ | .tag _ => false

/-- Whether an ampersand does no harm here: it stands at the beginning of a tag's text or in a
comment, and does not begin the closing delimiter. -/
def admits : Bool :=
  match k.mode with
  | .tag _ =>
    k.delimiters.closing.first ≠ '&' && (k.reversed.isEmpty || k.reversed.getLast? = some '!')
  | .text | .opening _ _ _ | .closing _ => false

/-- What a character does: the pieces that are complete with it, and where scanning stands then.
`lineEnds` tells whether the line ends after it. -/
def next (c : Char) (lineEnds : Bool) : Except TemplateFault (List Piece × Cursor) :=
  match step k.delimiters k.mode k.reversed c with
  | .proceed mode reversed => .ok ([], ⟨k.delimiters, mode, reversed⟩)
  | .enterTag => .ok (ofText k.reversed, ⟨k.delimiters, .tag false, []⟩)
  | .leaveTag => (Tag.read k.reversed.reverse).map fun found =>
      ([tag found lineEnds], ⟨delimitersAfter k.delimiters found, .text, []⟩)
  | .malformed => .error .malformedClose

/-- The pieces from here on, up to the first fault. -/
def scan (s : List Char) : List Piece × Option TemplateFault :=
  scanFrom k.delimiters k.mode k.reversed s

theorem scan_cons (c : Char) (s : List Char) :
    k.scan (c :: s) =
      match k.next c (endsLine s) with
      | .ok (pieces, m) => (pieces ++ (m.scan s).1, (m.scan s).2)
      | .error fault => ([], some fault) := by
  rw [scan, scanFrom, next]
  cases step k.delimiters k.mode k.reversed c with
  | proceed mode reversed | enterTag | malformed => rfl
  | leaveTag => cases Tag.read k.reversed.reverse <;> rfl

end Cursor

end Piece

open Piece (Cursor endsLine)

/-- Whether all ampersands that are put into a text do no harm, scanning standing somewhere.
`touched` tells whether an ampersand was put into the tag at hand; its text has to remain one, so it
must not end in the middle of the closing delimiter. -/
def aligned (touched : Bool) (k : Cursor) : List Char → Bool
  | '\x7b' :: '\x7b' :: s =>
    match k.next '\x7b' false with
    | .error _ => true
    | .ok (_, first) =>
      match first.next '\x7b' (endsLine s) with
      | .error _ => true
      | .ok (_, second) =>
        if beginsValue s then second.admits && aligned true second s
        else aligned (touched && first.inTag && second.inTag) second s
  | c :: s =>
    match k.next c (endsLine s) with
    | .error _ => true
    | .ok (_, m) => aligned (touched && m.inTag) m s
  | [] => !(touched && k.isClosing)

namespace Piece.Cursor

/-- The text of a tag, its end first, with and without an ampersand in it: it is the text of a value
with an ampersand before it, or that of a comment. What follows is given, too, as it tells whether a
value begins. -/
inductive Altered (s : List Char) : List Char → List Char → Prop where
  | value {r : List Char} (begins : beginsValue (r.reverse ++ s) = true) : Altered s r (r ++ ['&'])
  | comment {r r' : List Char} (isComment : r.getLast? = some '!')
    (isComment' : r'.getLast? = some '!') : Altered s r r'

namespace Altered

variable {c : Char} {s r r' : List Char}

theorem getLast?_cons_eq (isComment : r.getLast? = some '!') (c : Char) :
    (c :: r).getLast? = some '!' := by
  rw [List.getLast?_cons, isComment]
  rfl

theorem cons (altered : Altered (c :: s) r r') : Altered s (c :: r) (c :: r') := by
  cases altered with
  | value begins =>
    refine .value ?_
    rwa [List.reverse_cons, List.append_assoc]
  | comment isComment isComment' =>
    exact .comment (getLast?_cons_eq isComment c) (getLast?_cons_eq isComment' c)

/-- The tag is not put in braces. -/
theorem opensBrace_eq_false (altered : Altered (c :: s) r r') :
    opensBrace r c = false ∧ opensBrace r' c = false := by
  cases altered with
  | value begins =>
    refine ⟨?_, by simp [opensBrace]⟩
    cases r with
    | cons last r => rfl
    | nil =>
      have noSigil : c ∉ sigils := fun isSigil => by
        rw [List.reverse_nil, List.nil_append, not_beginsValue_of_mem_sigils isSigil] at begins
        cases begins
      have notBrace : c ≠ '\x7b' := by
        rintro rfl
        exact noSigil (by decide)
      simp [opensBrace, notBrace]
  | comment isComment isComment' =>
    cases r with
    | nil => cases isComment
    | cons last r =>
      cases r' with
      | nil => cases isComment'
      | cons last' r' => exact ⟨rfl, rfl⟩

/-- An ampersand in a comment leaves it one. -/
theorem getLast?_eq (altered : Altered s r r') (isComment : r.getLast? = some '!') :
    r'.getLast? = some '!' := by
  cases altered with
  | value begins =>
    obtain ⟨others, rfl⟩ := List.getLast?_eq_some_iff.mp isComment
    rw [List.reverse_append, List.reverse_singleton, List.singleton_append, List.cons_append,
      not_beginsValue_of_mem_sigils (by decide)] at begins
    cases begins
  | comment isComment isComment' => exact isComment'

/-- The tag is the same, but for whether its value is escaped. -/
theorem read (altered : Altered s r r') :
    Corresponds (fun t t' => ∀ d : Delimiters,
        t.mapEscaped (fun _ => false) = t'.mapEscaped (fun _ => false) ∧
          delimitersAfter d t = delimitersAfter d t')
      (Tag.read r.reverse) (Tag.read r'.reverse) := by
  cases altered with
  | value begins =>
    rw [List.reverse_append, List.reverse_singleton, List.singleton_append, Tag.read_ampersand,
      Tag.read_of_beginsValue (beginsValue_of_append begins)]
    exact (Corresponds.refl (fun _ => rfl) (readPath r.reverse)).map fun path path' same =>
      same ▸ fun d => ⟨rfl, rfl⟩
  | comment isComment isComment' =>
    have isRead {r : List Char} (isComment : r.getLast? = some '!') :
        Tag.read r.reverse = .ok .comment := by
      obtain ⟨others, rfl⟩ := List.getLast?_eq_some_iff.mp isComment
      rw [List.reverse_append, List.reverse_singleton, List.singleton_append, Tag.read, if_neg]
      rw [List.isEmpty_iff]
      exact trim_cons_ne_nil (by decide) _
    rw [isRead isComment, isRead isComment']
    exact .ok fun d => ⟨rfl, rfl⟩

end Altered

/-- Two cursors, the second one on the text with ampersands, of which `s` is left without them: they
are the same, or stand in the same tag, into which an ampersand was put. -/
inductive Follows (s : List Char) : Bool → Cursor → Cursor → Prop where
  | same (touched : Bool) (k : Cursor) : Follows s touched k k
  | tag {d : Delimiters} {braced : Bool} {r r' : List Char} (altered : Altered s r r') :
    Follows s true ⟨d, .tag braced, r⟩ ⟨d, .tag braced, r'⟩
  | closing {d : Delimiters} {braced : Bool} {r r' : List Char}
    (altered : Altered (d.closing.first :: s) r r') :
    Follows s true ⟨d, .closing braced, r⟩ ⟨d, .closing braced, r'⟩

theorem Follows.eq_of_not_inTag {s : List Char} {touched : Bool} {k k' : Cursor}
    (follows : Follows s touched k k') (outside : k.inTag = false) : k = k' := by
  cases follows with
  | same => rfl
  | tag altered | closing altered => cases outside

/-- What two cursors that follow each other come to: the same pieces, but for what is escaped, and
cursors that follow each other again. -/
def Advances (s : List Char) (touched : Bool) (x x' : List Piece × Cursor) : Prop :=
  x.1.map Piece.unescaped = x'.1.map Piece.unescaped ∧
    Follows s (touched && x.2.inTag) x.2 x'.2

section Next

variable {d : Delimiters} {braced : Bool} {c : Char} {s r r' : List Char}

/-- Whichever character closes a tag, the tag is the same but for what is escaped. -/
theorem advances_leaveTag {t : List Char} (altered : Altered t r r') (lineEnds : Bool) :
    Corresponds (Advances s true)
      ((Tag.read r.reverse).map fun found =>
        ([tag found lineEnds], (⟨delimitersAfter d found, .text, []⟩ : Cursor)))
      ((Tag.read r'.reverse).map fun found =>
        ([tag found lineEnds], (⟨delimitersAfter d found, .text, []⟩ : Cursor))) := by
  refine altered.read.map fun t t' alike => ?_
  obtain ⟨isTag, isAfter⟩ := alike d
  rw [isAfter]
  exact ⟨congrArg (fun t => [tag t lineEnds]) isTag, .same ..⟩

theorem advances_tag (altered : Altered (c :: s) r r') (lineEnds : Bool) :
    Corresponds (Advances s true) (next ⟨d, .tag braced, r⟩ c lineEnds)
      (next ⟨d, .tag braced, r'⟩ c lineEnds) := by
  -- Neither text begins with a brace, and what is decided from here on depends on neither text.
  obtain ⟨unbraced, unbraced'⟩ := altered.opensBrace_eq_false
  simp only [next, step, unbraced, unbraced', Bool.false_eq_true, if_false]
  by_cases isBrace : braced ∧ c = '\x7d'
  · rw [if_pos isBrace, if_pos isBrace]
    exact .ok ⟨rfl, .tag altered.cons⟩
  · rw [if_neg isBrace, if_neg isBrace]
    by_cases closes : c = d.closing.first
    · rw [if_pos closes, if_pos closes]
      cases d.closing.later with
      | nil => exact advances_leaveTag altered lineEnds
      | cons second later => exact .ok ⟨rfl, .closing (closes ▸ altered)⟩
    · rw [if_neg closes, if_neg closes]
      exact .ok ⟨rfl, .tag altered.cons⟩

theorem advances_closing (altered : Altered (d.closing.first :: c :: s) r r') (lineEnds : Bool) :
    Corresponds (Advances s true) (next ⟨d, .closing braced, r⟩ c lineEnds)
      (next ⟨d, .closing braced, r'⟩ c lineEnds) := by
  simp only [next, step]
  cases d.closing.later with
  | nil => exact .error _
  | cons second later =>
    by_cases closes : c = second
    · simp only [if_pos closes]
      cases later with
      | nil => exact advances_leaveTag altered lineEnds
      | cons third later => exact .ok ⟨rfl, .tag altered.cons.cons⟩
    · simp only [if_neg closes]
      exact .error _

/-- A character that both cursors meet has them follow each other again. -/
theorem Follows.next {touched : Bool} {k k' : Cursor} (follows : Follows (c :: s) touched k k')
    (lineEnds : Bool) :
    Corresponds (Advances s touched) (k.next c lineEnds) (k'.next c lineEnds) := by
  cases follows with
  | same => exact Corresponds.refl (fun x => ⟨rfl, .same ..⟩) _
  | tag altered => exact advances_tag altered lineEnds
  | closing altered => exact advances_closing altered lineEnds

end Next

/-- No character but the one that begins a tag leaves its text empty. -/
theorem ne_nil_of_step {d : Delimiters} {mode : Mode} {reversed r : List Char} {c : Char}
    {braced : Bool} (isStep : step d mode reversed c = .proceed (.tag braced) r) : r ≠ [] := by
  rintro rfl
  unfold step at isStep
  repeat' split at isStep
  all_goals cases isStep

theorem not_inTag_of_step {k : Cursor} {c : Char}
    (isStep : step k.delimiters k.mode k.reversed c = .enterTag) : k.inTag = false := by
  obtain ⟨d, mode, reversed⟩ := k
  cases mode with
  | text | opening seen next later => rfl
  | tag braced | closing braced =>
    simp only [step] at isStep
    repeat' split at isStep
    all_goals cases isStep

/-- A tag begins only outside of tags. -/
theorem not_inTag_of_next {k m : Cursor} {c : Char} {lineEnds : Bool} {pieces : List Piece}
    {braced : Bool} (isNext : k.next c lineEnds = .ok (pieces, m)) (isTag : m.mode = .tag braced)
    (isEmpty : m.reversed = []) : k.inTag = false := by
  unfold next at isNext
  split at isNext
  · rename_i mode r isStep
    obtain ⟨⟩ := isNext
    cases isTag
    exact absurd isEmpty (ne_nil_of_step isStep)
  · rename_i isStep
    exact not_inTag_of_step isStep
  · cases isRead : Tag.read k.reversed.reverse with
    | error fault =>
      rw [isRead] at isNext
      cases isNext
    | ok found =>
      rw [isRead] at isNext
      obtain ⟨⟩ := isNext
      cases isTag
  · cases isNext

theorem exists_mode_eq_tag_of_admits {k : Cursor} (admits : k.admits = true) :
    ∃ braced, k.mode = .tag braced := by
  unfold Cursor.admits at admits
  split at admits
  · exact ⟨_, ‹_›⟩
  · cases admits
  · cases admits
  · cases admits

theorem next_ampersand {d : Delimiters} {braced : Bool} {r : List Char}
    (distinct : d.closing.first ≠ '&') (lineEnds : Bool) :
    next ⟨d, .tag braced, r⟩ '&' lineEnds = .ok ([], ⟨d, .tag braced, '&' :: r⟩) := by
  have goesOn : step d (.tag braced) r '&' = .proceed (.tag braced) ('&' :: r) := by
    simp [step, opensBrace, distinct.symm]
  rw [next, goesOn]

/-- An ampersand that does no harm has the cursors follow each other. -/
theorem Follows.insert {s : List Char} {touched : Bool} {k k' : Cursor}
    (follows : Follows s touched k k') (admits : k.admits = true)
    (begins : beginsValue s = true) (fresh : k.reversed = [] → k = k') (lineEnds : Bool) :
    ∃ m, k'.next '&' lineEnds = .ok ([], m) ∧ Follows s true k m := by
  obtain ⟨d, mode, r⟩ := k
  cases mode with
  | text | opening seen next later | closing braced => cases admits
  | tag braced =>
    simp only [Cursor.admits, Bool.and_eq_true, Bool.or_eq_true, decide_eq_true_eq,
      List.isEmpty_iff] at admits
    obtain ⟨distinct, rfl | isComment⟩ := admits
    · -- At the beginning of a tag, the ampersand is the first character of its text.
      obtain rfl := fresh rfl
      exact ⟨_, next_ampersand distinct lineEnds, .tag (.value begins)⟩
    · obtain ⟨r', rfl, isComment'⟩ :
          ∃ r', k' = ⟨d, .tag braced, r'⟩ ∧ r'.getLast? = some '!' := by
        cases follows with
        | same => exact ⟨r, rfl, isComment⟩
        | tag altered => exact ⟨_, rfl, altered.getLast?_eq isComment⟩
      exact ⟨_, next_ampersand distinct lineEnds,
        .tag (.comment isComment (Altered.getLast?_cons_eq isComment' '&'))⟩

/-- Whether the line ends after a character matters only if the character closes a tag. -/
theorem next_eq_of_inTag {k : Cursor} {c : Char} {lineEnds : Bool}
    (inTag : ∀ pieces m, k.next c lineEnds = .ok (pieces, m) → m.inTag = true) (lineEnds' : Bool) :
    k.next c lineEnds' = k.next c lineEnds := by
  unfold next at inTag ⊢
  cases isStep : step k.delimiters k.mode k.reversed c with
  | proceed mode reversed | enterTag | malformed => rfl
  | leaveTag =>
    cases isRead : Tag.read k.reversed.reverse with
    | error fault => rfl
    | ok found =>
      simp only [isStep, isRead] at inTag
      cases inTag _ _ rfl

theorem Follows.inTag_eq {s : List Char} {touched : Bool} {k k' : Cursor}
    (follows : Follows s touched k k') : k'.inTag = k.inTag := by
  cases follows <;> rfl

/-- Pieces and a fault that are the same but for what is escaped. -/
def Agree (x y : List Piece × Option TemplateFault) : Prop :=
  x.1.map Piece.unescaped = y.1.map Piece.unescaped ∧ x.2 = y.2

section Agree

variable {c : Char} {s rest : List Char} {touched : Bool} {k k' m : Cursor} {pieces : List Piece}
  {fault : TemplateFault}

/-- What is scanned agrees if the next character is a fault, whatever follows it. -/
theorem Follows.agree_of_error (follows : Follows (c :: s) touched k k')
    (failed : k.next c (endsLine s) = .error fault) (rest : List Char) :
    Agree (k'.scan (c :: rest)) (k.scan (c :: s)) := by
  rcases (follows.next (endsLine s)).error_or_ok with
    ⟨fault', isFault, isFault'⟩ | ⟨_, _, isNext, -, -⟩
  · have alike : k'.next c (endsLine rest) = .error fault' := by
      rw [next_eq_of_inTag (fun _ _ isNext => nomatch isFault'.symm.trans isNext), isFault']
    rw [scan_cons, scan_cons, alike, isFault]
    exact ⟨rfl, rfl⟩
  · nomatch failed.symm.trans isNext

/-- What is scanned agrees if it does so after the next character. What follows may end the line in
one text only if the character stands in a tag. -/
theorem Follows.agree_cons (follows : Follows (c :: s) touched k k')
    (isNext : k.next c (endsLine s) = .ok (pieces, m))
    (sameEnd : endsLine rest = endsLine s ∨ m.inTag = true)
    (continues : ∀ pieces' m', k'.next c (endsLine s) = .ok (pieces', m') →
      Follows s (touched && m.inTag) m m' → Agree (m'.scan rest) (m.scan s)) :
    Agree (k'.scan (c :: rest)) (k.scan (c :: s)) := by
  rcases (follows.next (endsLine s)).error_or_ok with
    ⟨_, isFault, -⟩ | ⟨_, ⟨pieces', m'⟩, isSame, isNext', advances⟩
  · nomatch isNext.symm.trans isFault
  · obtain rfl := Except.ok.inj (isNext.symm.trans isSame)
    have alike : k'.next c (endsLine rest) = .ok (pieces', m') := by
      rcases sameEnd with same | inTag
      · rw [same, isNext']
      · have inTag' : m'.inTag = true := advances.2.inTag_eq.trans inTag
        rw [next_eq_of_inTag (fun _ _ isNext => ?_), isNext']
        obtain ⟨-, rfl⟩ := Prod.mk.inj (Except.ok.inj (isNext'.symm.trans isNext))
        exact inTag'
    obtain ⟨others, faults⟩ := continues pieces' m' isNext' advances.2
    rw [scan_cons, scan_cons, alike, isNext]
    refine ⟨?_, faults⟩
    simp only [List.map_append, advances.1, others]

/-- The pieces of a text are the same with and without ampersands, but for what is escaped, if these
do no harm. -/
theorem scan_verbatim (follows : Follows s touched k k') (isAligned : aligned touched k s = true) :
    Agree (k'.scan (verbatim s)) (k.scan s) := by
  fun_induction aligned touched k s generalizing k' with
  | case1 touched k s fault isFault =>
    rw [verbatim]
    split <;> exact follows.agree_of_error isFault _
  | case2 touched k s _ first isFirst fault isFault =>
    rw [verbatim]
    split <;> exact follows.agree_cons isFirst (.inl rfl) fun _ _ _ follows =>
      follows.agree_of_error isFault _
  | case3 touched k s _ first isFirst _ second isSecond begins ih =>
    obtain ⟨admits, isAligned⟩ := Bool.and_eq_true_iff.mp isAligned
    obtain ⟨braced, isTag⟩ := exists_mode_eq_tag_of_admits admits
    have inTag : second.inTag = true := by rw [inTag, isTag]
    rw [verbatim, if_pos begins]
    refine follows.agree_cons isFirst (.inl rfl) fun _ first' _ before => ?_
    refine before.agree_cons isSecond (.inr inTag) fun _ second' isSecond' after => ?_
    -- A tag that has just begun was not touched before, so no second ampersand is put into it.
    have fresh (isEmpty : second.reversed = []) : second = second' := by
      obtain rfl := before.eq_of_not_inTag (not_inTag_of_next isSecond isTag isEmpty)
      exact (Prod.mk.inj (Except.ok.inj (isSecond.symm.trans isSecond'))).2
    obtain ⟨m, isAmpersand, inserted⟩ := after.insert admits begins fresh (endsLine (verbatim s))
    rw [scan_cons, isAmpersand]
    exact ih inserted isAligned
  | case4 touched k s _ first isFirst _ second isSecond begins ih =>
    rw [verbatim, if_neg begins]
    refine follows.agree_cons isFirst (.inl rfl) fun _ _ _ before => ?_
    refine before.agree_cons isSecond (.inl (endsLine_verbatim s)) fun _ _ _ after => ?_
    exact ih after isAligned
  | case5 touched k c s single fault isFault =>
    rw [verbatim]
    · exact follows.agree_of_error isFault _
    · exact single
  | case6 touched k c s single _ m isNext ih =>
    rw [verbatim]
    · refine follows.agree_cons isNext (.inl (endsLine_verbatim s)) fun _ _ _ after => ?_
      exact ih after isAligned
    · exact single
  | case7 touched k =>
    cases follows with
    | same => exact ⟨rfl, rfl⟩
    -- In a tag, both texts end with the same fault; in a closing delimiter the tag would be text.
    | tag altered => exact ⟨rfl, rfl⟩
    | closing altered => cases isAligned

end Agree

end Piece.Cursor

end Stencil.Mustache
