import Stencil.Markup.Event
import Stencil.Proofs.Except
import Stencil.Proofs.Markup.Written

/-!
# Written pieces and their tokens

A piece of a written document is cut out of the text as it was put in, whatever follows it: the
mark that ends it does not occur earlier, and a `>` in a value is written as a reference. What was
cut out is understood as it was meant: references give back the characters they stand for, and a tag
its name and its attributes.

## Main definitions

* `Unbordered`: marks that do not overlap with themselves
* `Token.Closed`: text that leaves no quote open and does not end a tag
* `Token.Cuts`: text that is cut out as one piece of markup

## Main results

* `Reference.decode_escape`: escaped text is decoded
* `Token.cuts_aside`, `Token.cuts_cdata`, `Token.cuts_opening`, `Token.cuts_selfClosing`,
  `Token.cuts_closing`: the pieces of markup
* `Tag.read_startTag`: what a written tag says
-/

namespace Stencil.Markup

open Stencil.Text Written

/-! ### Plain characters -/

namespace Written

variable {c d : Char}

theorem isNameChar_of_beginsName (begins : beginsName c = true) : isNameChar c = true := by
  simp only [beginsName, isNameChar, Char.isAlphanum, Bool.or_eq_true] at begins ⊢
  rcases begins with letter | underscore
  · exact .inl (.inl (.inl (.inl letter)))
  · exact .inl (.inl (.inr underscore))

theorem Name.isNameChar_of_mem {name : Name} (isMem : c ∈ name.chars) : isNameChar c = true := by
  rcases List.mem_cons.mp isMem with rfl | isOther
  · exact isNameChar_of_beginsName name.begins
  · exact List.all_eq_true.mp name.plain c isOther

theorem ne_of_isNameChar (plain : isNameChar c = true) (special : isNameChar d = false) :
    c ≠ d := by
  rintro rfl
  rw [plain] at special
  cases special

theorem not_isSpace_of_isNameChar (plain : isNameChar c = true) : isSpace c = false := by
  have differs (d : Char) (special : isNameChar d = false) : decide (c = d) = false :=
    decide_eq_false (ne_of_isNameChar plain special)
  simp only [isSpace, differs ' ' rfl, differs '\t' rfl, differs '\r' rfl, differs '\n' rfl,
    Bool.or_self]

theorem not_endsKey_of_isNameChar (plain : isNameChar c = true) :
    Markup.Attribute.endsKey c = false := by
  rw [Markup.Attribute.endsKey, not_isSpace_of_isNameChar plain,
    decide_eq_false (ne_of_isNameChar plain rfl), Bool.or_self]

theorem ne_of_mem_escapeChar (isMem : c ∈ escapeChar d) :
    c ≠ '<' ∧ c ≠ '>' ∧ c ≠ '"' ∧ c ≠ '\'' := by
  unfold escapeChar at isMem
  split at isMem
  case h_6 ampersand less greater quote apostrophe =>
    obtain rfl := List.mem_singleton.mp isMem
    exact ⟨less, greater, quote, apostrophe⟩
  -- The references are finitely many characters, none of them special.
  all_goals
    simp only [List.mem_cons, List.not_mem_nil, or_false] at isMem
    rcases isMem with rfl | rfl | rfl | rfl | rfl | rfl <;> decide

/-- Escaped text has neither angle brackets nor quotes. -/
theorem ne_of_mem_escape {s : List Char} (isMem : c ∈ escape s) :
    c ≠ '<' ∧ c ≠ '>' ∧ c ≠ '"' ∧ c ≠ '\'' := by
  obtain ⟨d, -, isMem⟩ := List.mem_flatMap.mp isMem
  exact ne_of_mem_escapeChar isMem

theorem Quote.not_mem_escape (q : Quote) (s : List Char) : q.char ∉ escape s := by
  intro isMem
  obtain ⟨-, -, notDouble, notSingle⟩ := ne_of_mem_escape isMem
  cases q with
  | single => exact notSingle rfl
  | double => exact notDouble rfl

theorem Quote.char_eq (q : Quote) : q.char = '"' ∨ q.char = '\'' := by
  cases q with
  | single => exact .inr rfl
  | double => exact .inl rfl

theorem escape_ne_nil {s : List Char} (nonempty : s ≠ []) : escape s ≠ [] := by
  obtain ⟨c, s, rfl⟩ := List.exists_cons_of_ne_nil nonempty
  rw [escape, List.flatMap_cons]
  apply List.append_ne_nil_of_left_ne_nil
  unfold escapeChar
  split <;> simp

/-- Blank text is written as it is. -/
theorem escape_of_isBlank {s : List Char} (blank : s.all isBlank = true) : escape s = s := by
  induction s with
  | nil => rfl
  | cons c s ih =>
    rw [List.all_cons, Bool.and_eq_true] at blank
    have itself : escapeChar c = [c] := by
      unfold escapeChar
      split
      case h_6 => rfl
      all_goals exact absurd blank.1 (by decide)
    rw [escape, List.flatMap_cons, itself, ← escape, ih blank.2, List.singleton_append]

end Written

/-! ### References -/

namespace Reference

variable {length length' offset offset' : Nat} {c : Char} {s decoded : List Char}

theorem decodeFrom_cons_of_ne (ne : c ≠ '&') :
    decodeFrom length offset (c :: s) = (c :: ·) <$> decodeFrom length (offset + c.utf8Size) s := by
  rw [decodeFrom, if_neg ne]
  rfl

theorem decodeFrom_reference (length offset : Nat) {name : List Char}
    (plain : ∀ c ∈ name, isDelimiter c = false) (s : List Char) :
    decodeFrom length offset ('&' :: (name ++ ';' :: s)) = do
      let named ← resolve (offset + 1) name
      let decoded ← decodeFrom length (offset + 1 + byteLength name + 1) s
      return named :: decoded := by
  have isName : (name ++ ';' :: s).takeWhile (!isDelimiter ·) = name := by
    rw [List.takeWhile_append_of_pos (by simpa using plain), List.takeWhile_cons_of_neg (by decide),
      List.append_nil]
  have isRest : (name ++ ';' :: s).dropWhile (!isDelimiter ·) = ';' :: s := by
    rw [List.dropWhile_append_of_pos (by simpa using plain), List.dropWhile_cons_of_neg (by decide)]
  rw [decodeFrom, if_pos rfl, isName]
  split
  · rename_i rest found
    rw [isRest] at found
    cases found
    rfl
  · rename_i other
    exact absurd isRest (other s)

theorem resolve_eq_ok_of_eq_ok {start start' : Nat} {name : List Char}
    (isOk : resolve start name = .ok c) : resolve start' name = .ok c := by
  unfold resolve at isOk ⊢
  split at isOk
  · exact isOk
  · rename_i notNumber
    cases known : entity? name with
    | none => simp [known] at isOk
    | some named => simpa [known] using isOk

/-- The characters that text stands for do not depend on where it stands. -/
theorem decodeFrom_eq_ok_of_eq_ok (isOk : decodeFrom length offset s = .ok decoded) :
    decodeFrom length' offset' s = .ok decoded := by
  fun_induction decodeFrom length offset s generalizing offset' decoded with
  | case1 offset =>
    cases isOk
    rw [decodeFrom]
  | case2 offset s name rest found =>
    rename_i ih
    obtain ⟨named, resolved, isOk⟩ := bind_eq_ok_iff.mp isOk
    obtain ⟨others, decodedRest, isOk⟩ := bind_eq_ok_iff.mp isOk
    cases isOk
    have plain : ∀ c ∈ s.takeWhile (!isDelimiter ·), isDelimiter c = false := by
      intro c isMem
      simpa using List.all_eq_true.mp List.all_takeWhile c isMem
    have whole := decodeFrom_reference length' offset' plain rest
    rw [← found, List.takeWhile_append_dropWhile] at whole
    rw [whole, resolve_eq_ok_of_eq_ok resolved, ih decodedRest]
    rfl
  | case3 offset s unterminated => cases isOk
  | case4 offset c s notReference ih =>
    rw [decodeFrom_cons_of_ne notReference]
    obtain ⟨others, decodedRest, isOk⟩ := bind_eq_ok_iff.mp isOk
    cases isOk
    rw [ih decodedRest]
    rfl

theorem decodeFrom_entity (name : List Char) (plain : name.all (!isDelimiter ·) = true)
    (named : ∀ start, resolve start name = .ok c) :
    decodeFrom length offset ('&' :: (name ++ ';' :: s)) =
      (c :: ·) <$> decodeFrom length (offset + byteLength ('&' :: (name ++ [';']))) s := by
  have width : offset + 1 + byteLength name + 1 = offset + byteLength ('&' :: (name ++ [';'])) := by
    rw [byteLength_cons, byteLength_append, byteLength_cons, byteLength_nil]
    have ampersand : '&'.utf8Size = 1 := rfl
    have semicolon : ';'.utf8Size = 1 := rfl
    omega
  have plain : ∀ c ∈ name, isDelimiter c = false := by simpa using plain
  rw [decodeFrom_reference length offset plain, named, width]
  rfl

theorem decodeFrom_escapeChar_append :
    decodeFrom length offset (escapeChar c ++ s) =
      (c :: ·) <$> decodeFrom length (offset + byteLength (escapeChar c)) s := by
  unfold escapeChar
  split
  · exact decodeFrom_entity ['a', 'm', 'p'] rfl fun _ => rfl
  · exact decodeFrom_entity ['l', 't'] rfl fun _ => rfl
  · exact decodeFrom_entity ['g', 't'] rfl fun _ => rfl
  · exact decodeFrom_entity ['q', 'u', 'o', 't'] rfl fun _ => rfl
  · exact decodeFrom_entity ['a', 'p', 'o', 's'] rfl fun _ => rfl
  · rename_i notAmpersand _ _ _ _
    exact decodeFrom_cons_of_ne notAmpersand

/-- Escaped text is decoded, and what follows it as if it stood alone. -/
theorem decodeFrom_escape_append (length offset : Nat) (s rest : List Char) :
    decodeFrom length offset (escape s ++ rest) =
      (s ++ ·) <$> decodeFrom length (offset + byteLength (escape s)) rest := by
  induction s generalizing offset with
  | nil => simp [escape]
  | cons c s ih =>
    rw [escape, List.flatMap_cons, ← escape, List.append_assoc, decodeFrom_escapeChar_append, ih,
      byteLength_append, ← Nat.add_assoc, ← comp_map]
    rfl

theorem decode_escape (s : List Char) : decode (escape s) = .ok s := by
  have whole := decodeFrom_escape_append (byteLength (escape s)) 0 s []
  rw [decodeFrom, List.append_nil] at whole
  rw [decode, whole]
  simp [Functor.map, Except.map]

/-- If raw text stands for something, then also after escaped text. -/
theorem decode_escape_append {s rest decoded : List Char} (isOk : decode rest = .ok decoded) :
    decode (escape s ++ rest) = .ok (s ++ decoded) := by
  rw [decode, decodeFrom_escape_append, decodeFrom_eq_ok_of_eq_ok isOk]
  rfl

end Reference

/-! ### Marks -/

/-- A mark of which no proper end is a beginning. -/
def Unbordered (mark : List Char) : Prop :=
  ∀ k < mark.length, 0 < k → mark.drop k ≠ mark.take (mark.length - k)

instance (mark : List Char) : Decidable (Unbordered mark) :=
  inferInstanceAs (Decidable (∀ k < mark.length, 0 < k → mark.drop k ≠ mark.take (mark.length - k)))

namespace Token

/-- A mark that does not overlap with itself is found where it was put, if it does not occur
earlier. -/
theorem splitAtMark?_append {mark content : List Char} (unbordered : Unbordered mark)
    (nonempty : mark ≠ []) (absent : ¬ mark <:+: content) (rest : List Char) :
    splitAtMark? mark (content ++ (mark ++ rest)) = some (content, rest) := by
  induction content with
  | nil =>
    obtain ⟨c, mark, rfl⟩ := List.exists_cons_of_ne_nil nonempty
    have found : (c :: mark).isPrefixOf ((c :: mark) ++ rest) = true :=
      List.isPrefixOf_iff_prefix.mpr (List.prefix_append _ _)
    rw [List.nil_append, List.cons_append, splitAtMark?, ← List.cons_append, if_pos found,
      List.drop_left]
  | cons c content ih =>
    have notHere : ¬ mark <+: c :: content ++ (mark ++ rest) := by
      intro here
      rcases List.prefix_or_prefix_of_prefix here (List.prefix_append _ _) with within | beyond
      · exact absent within.isInfix
      · -- An end of the mark would be its beginning as well.
        obtain ⟨t, isMark⟩ := beyond
        have lengths : (c :: content).length + t.length = mark.length := by
          rw [← isMark, List.length_append]
        have isEnd : mark.drop (c :: content).length = t := by
          rw [← isMark, List.drop_left]
        have follows : t <+: mark ++ rest := by
          rw [← List.prefix_append_right_inj (c :: content), isMark]
          exact here
        have isBeginning : t <+: mark :=
          List.prefix_of_prefix_length_le follows (List.prefix_append mark rest) (by omega)
        have proper : t ≠ [] := by
          rintro rfl
          rw [List.append_nil] at isMark
          exact absent (isMark ▸ List.infix_refl _)
        have := List.length_pos_iff.mpr proper
        refine unbordered (c :: content).length (by omega) (by simp) ?_
        rw [isEnd, List.prefix_iff_eq_take.mp isBeginning]
        congr 1
        omega
    have absentLater : ¬ mark <:+: content := fun later =>
      absent (later.trans (List.infix_cons (List.infix_refl content)))
    rw [List.cons_append, splitAtMark?, if_neg (by simpa using notHere), ih absentLater]
    rfl

/-! ### Tags -/

/-- Text in a tag that leaves no quote open and does not end the tag. -/
def Closed (x : List Char) : Prop :=
  ∀ rest, splitTag? none (x ++ rest) =
    (splitTag? none rest).map fun (content, after) => (x ++ content, after)

namespace Closed

variable {x y : List Char}

theorem nil : Closed [] := by
  intro rest
  simp

theorem append (first : Closed x) (second : Closed y) : Closed (x ++ y) := by
  intro rest
  rw [List.append_assoc, first, second, Option.map_map]
  simp [Function.comp_def]

theorem of_plain (plain : ∀ c ∈ x, c ≠ '>' ∧ c ≠ '"' ∧ c ≠ '\'') : Closed x := by
  induction x with
  | nil => exact nil
  | cons c x ih =>
    intro rest
    obtain ⟨notEnd, notDouble, notSingle⟩ := plain c List.mem_cons_self
    rw [List.cons_append, splitTag?]
    simp only [notEnd, notDouble, notSingle, or_self, if_false]
    rw [ih (fun d isMem => plain d (List.mem_cons_of_mem c isMem)), Option.map_map]
    simp [Function.comp_def]

/-- Within quotes nothing else ends a tag. -/
theorem splitTag?_of_not_mem {q : Char} {value : List Char} (absent : q ∉ value)
    (rest : List Char) :
    splitTag? (some q) (value ++ q :: rest) =
      (splitTag? none rest).map fun (content, after) => (value ++ q :: content, after) := by
  induction value with
  | nil => simp [splitTag?]
  | cons c value ih =>
    rw [List.mem_cons, not_or] at absent
    rw [List.cons_append, splitTag?, if_neg (Ne.symm absent.1), ih absent.2, Option.map_map]
    simp [Function.comp_def]

theorem quoted (q : Quote) (value : List Char) (absent : q.char ∉ value) :
    Closed (q.char :: (value ++ [q.char])) := by
  intro rest
  have isQuote : q.char = '"' ∨ q.char = '\'' := q.char_eq
  have notEnd : q.char ≠ '>' := by cases q <;> decide
  rw [List.cons_append, List.append_assoc, List.singleton_append, splitTag?]
  simp only [notEnd, isQuote, if_false, if_true]
  rw [splitTag?_of_not_mem absent, Option.map_map]
  simp [Function.comp_def]

theorem of_name (n : Name) : Closed n.chars := by
  refine of_plain fun c isMem => ?_
  have plain := n.isNameChar_of_mem isMem
  exact ⟨ne_of_isNameChar plain rfl, ne_of_isNameChar plain rfl, ne_of_isNameChar plain rfl⟩

theorem of_attribute (a : Written.Attribute) : Closed a.chars := by
  have blank : Closed [' '] := of_plain (by simp)
  have equals : Closed ['='] := of_plain (by simp)
  have value := quoted a.quote _ (a.quote.not_mem_escape a.value.toList)
  have whole := blank.append ((of_name a.name).append (equals.append value))
  simpa [Written.Attribute.chars] using whole

theorem of_startTag (t : StartTag) : Closed t.chars := by
  refine (of_name t.name).append ?_
  induction t.attributes with
  | nil => exact nil
  | cons a attributes ih => exact (of_attribute a).append ih

theorem splitTag?_append (closed : Closed x) (rest : List Char) :
    splitTag? none (x ++ '>' :: rest) = some (x, rest) := by
  rw [closed]
  simp [splitTag?]

end Closed

/-! ### Pieces of markup -/

/-- Text that, after a `<`, is cut out as one piece, whatever follows it. -/
def Cuts (x : List Char) (piece : Piece) : Prop :=
  ∀ rest, markup (x ++ rest) = .ok (⟨piece, '<' :: x⟩, rest)

theorem cuts_cdata {content : List Char} (unended : ¬ [']', ']', '>'] <:+: content) :
    Cuts ('!' :: '[' :: 'C' :: 'D' :: 'A' :: 'T' :: 'A' :: '[' :: (content ++ [']', ']', '>']))
      (.cdata content) := by
  intro rest
  have unbordered : Unbordered [']', ']', '>'] := by decide
  have found : splitAtMark? [']', ']', '>'] (content ++ ']' :: ']' :: '>' :: rest) =
      some (content, rest) := splitAtMark?_append unbordered (by simp) unended rest
  simp [markup, bang, found]

theorem cuts_comment {content : List Char} (plain : '-' ∉ content) :
    Cuts ('!' :: '-' :: '-' :: (content ++ ['-', '-', '>'])) (.comment content) := by
  intro rest
  have unbordered : Unbordered ['-', '-', '>'] := by decide
  have absent : ¬ ['-', '-', '>'] <:+: content := fun occurs =>
    plain (occurs.subset List.mem_cons_self)
  have found : splitAtMark? ['-', '-', '>'] (content ++ '-' :: '-' :: '>' :: rest) =
      some (content, rest) := splitAtMark?_append unbordered (by simp) absent rest
  simp [markup, bang, found]

theorem cuts_instruction {content : List Char} (nonempty : content ≠ [])
    (plain : '?' ∉ content ∧ '>' ∉ content) :
    Cuts ('?' :: (content ++ ['?', '>'])) (.instruction content) := by
  intro rest
  have unbordered : Unbordered ['?', '>'] := by decide
  have absent : ¬ ['?', '>'] <:+: content := fun occurs =>
    plain.1 (occurs.subset List.mem_cons_self)
  have found : splitAtMark? ['?', '>'] (content ++ '?' :: '>' :: rest) = some (content, rest) :=
    splitAtMark?_append unbordered (by simp) absent rest
  obtain ⟨c, content, rfl⟩ := List.exists_cons_of_ne_nil nonempty
  have goesOn : c ≠ '>' := fun isEnd => plain.2 (isEnd ▸ List.mem_cons_self)
  rw [List.cons_append] at found
  simp [markup, found, goesOn]

/-- A comment or a processing instruction is cut out, and nothing comes of it. -/
theorem cuts_aside (a : Aside) : ∃ piece, Cuts a.chars piece ∧
    ∀ line, Event.ofToken line ⟨piece, '<' :: a.chars⟩ = .ok .aside := by
  cases a with
  | comment text plain =>
    exact ⟨.comment text.toList, cuts_comment plain.1, fun line => rfl⟩
  | instruction text nonempty plain =>
    have nonempty : text.toList ≠ [] := by simpa using nonempty
    exact ⟨.instruction text.toList, cuts_instruction nonempty plain, fun line => rfl⟩

/-- A tag that begins with a name is cut out up to its end. -/
theorem cuts_tag {x : List Char} (n : Name) (closed : Closed (n.chars ++ x)) :
    Cuts (n.chars ++ x ++ ['>']) (ofTag (n.chars ++ x)) := by
  intro rest
  have plain := isNameChar_of_beginsName n.begins
  have notBang : n.first ≠ '!' := ne_of_isNameChar plain rfl
  have notQuestion : n.first ≠ '?' := ne_of_isNameChar plain rfl
  have notSlash : n.first ≠ '/' := ne_of_isNameChar plain rfl
  have found := closed.splitTag?_append rest
  rw [List.append_assoc, List.singleton_append]
  simp only [Name.chars, List.cons_append] at found ⊢
  -- A name is neither a declaration, an instruction nor a closing tag.
  rw [markup, found]
  · rfl
  · intro s isCons
    exact notBang (List.cons.inj isCons).1
  · intro s isCons
    exact notQuestion (List.cons.inj isCons).1
  · intro s isCons
    exact notSlash (List.cons.inj isCons).1

/-- There is no blank in a name that could be taken off its end. -/
theorem closingName_chars (n : Name) : closingName n.chars = n.chars := by
  have notBlank {c : Char} (isMem : c ∈ n.chars) : isSpace c = false :=
    not_isSpace_of_isNameChar (n.isNameChar_of_mem isMem)
  have notAll : ¬ n.chars.all isSpace = true := by
    rw [Name.chars, List.all_cons, notBlank (c := n.first) List.mem_cons_self, Bool.false_and]
    exact Bool.false_ne_true
  have nonempty : n.chars.reverse ≠ [] := by simp [Name.chars]
  obtain ⟨last, s, isCons⟩ := List.exists_cons_of_ne_nil nonempty
  have isMem : last ∈ n.chars := List.mem_reverse.mp (isCons ▸ List.mem_cons_self)
  rw [closingName, if_neg notAll, isCons, List.dropWhile_cons_of_neg (by simp [notBlank isMem]),
    ← isCons, List.reverse_reverse]

theorem cuts_closing (n : Name) : Cuts ('/' :: (n.chars ++ ['>'])) (.closing n.chars) := by
  intro rest
  have found := (Closed.of_name n).splitTag?_append rest
  simp [markup, found, closingName_chars]

/-- What stands in a written tag does not end with a slash: it ends with a name or a quote. -/
theorem getLast?_startTag (t : StartTag) : t.chars.getLast? ≠ some '/' := by
  rcases List.eq_nil_or_concat t.attributes with none | ⟨before, a, isConcat⟩
  · intro isLast
    have isMem : '/' ∈ t.name.chars := by
      rw [StartTag.chars, none, List.flatMap_nil, List.append_nil] at isLast
      exact List.mem_of_getLast? isLast
    exact ne_of_isNameChar (t.name.isNameChar_of_mem isMem) rfl rfl
  · have shape : t.chars = t.name.chars ++ before.flatMap Written.Attribute.chars ++ ' ' ::
        (a.name.chars ++ '=' :: a.quote.char :: escape a.value.toList) ++ [a.quote.char] := by
      simp [StartTag.chars, isConcat, Written.Attribute.chars]
    rw [shape, List.getLast?_concat]
    cases a.quote <;> decide

theorem cuts_opening (t : StartTag) : Cuts (t.chars ++ ['>']) (.opening t.chars) := by
  have isOpening : ofTag t.chars = .opening t.chars := by
    unfold ofTag
    split
    · rename_i isLast
      exact absurd isLast (getLast?_startTag t)
    · rfl
  rw [← isOpening]
  exact cuts_tag t.name (Closed.of_startTag t)

theorem cuts_selfClosing (t : StartTag) : Cuts (t.chars ++ ['/', '>']) (.selfClosing t.chars) := by
  have isSelfClosing : ofTag (t.chars ++ ['/']) = .selfClosing t.chars := by
    simp [ofTag]
  have closed : Closed (t.chars ++ ['/']) := (Closed.of_startTag t).append (.of_plain (by simp))
  rw [StartTag.chars, List.append_assoc] at isSelfClosing closed
  have cuts := cuts_tag t.name closed
  rw [isSelfClosing] at cuts
  simpa [StartTag.chars] using cuts

end Token

/-! ### What tags say -/

namespace Attribute

theorem quoted_append (length : Nat) (q : Quote) {value : List Char} (absent : q.char ∉ value)
    (rest : List Char) :
    quoted length (q.char :: (value ++ q.char :: rest)) = .ok (value, rest) := by
  have notBlank : isSpace q.char = false := by cases q <;> rfl
  have within (c : Char) (isMem : c ∈ value) : decide (c ≠ q.char) = true := by
    refine decide_eq_true ?_
    rintro rfl
    exact absent isMem
  rw [quoted, List.dropWhile_cons_of_neg (by simp [notBlank])]
  simp only [q.char_eq, if_true]
  rw [List.dropWhile_append_of_pos within, List.takeWhile_append_of_pos within,
    List.dropWhile_cons_of_neg (by simp), List.takeWhile_cons_of_neg (by simp), List.append_nil]

/-- A written attribute is read, whatever follows it, if no earlier one has its name. -/
theorem next?_append (length : Nat) {earlier : List Attribute} {a : Written.Attribute}
    (isNew : ∀ b ∈ earlier, b.key ≠ a.name.chars) (rest : List Char) :
    ∃ position, next? length earlier (a.chars ++ rest) =
      .ok (some (⟨a.name.chars, position, escape a.value.toList⟩, rest)) := by
  have shape : a.chars ++ rest = ' ' :: a.name.first :: (a.name.others ++
      '=' :: a.quote.char :: (escape a.value.toList ++ a.quote.char :: rest)) := by
    simp [Written.Attribute.chars, Name.chars]
  have firstNotBlank : isSpace a.name.first = false :=
    not_isSpace_of_isNameChar (isNameChar_of_beginsName a.name.begins)
  have inKey (c : Char) (isMem : c ∈ a.name.others) : (!endsKey c) = true := by
    rw [not_endsKey_of_isNameChar (List.all_eq_true.mp a.name.plain c isMem)]
    rfl
  have notFound : earlier.find? (·.key = a.name.first :: a.name.others) = none := by
    simpa [Name.chars] using isNew
  have isEquals (s : List Char) : afterEquals length ('=' :: s) = .ok s := rfl
  have isValue := quoted_append length a.quote (a.quote.not_mem_escape a.value.toList) rest
  refine ⟨length - byteLength (a.chars ++ rest).tail, ?_⟩
  rw [shape, next?, List.dropWhile_cons_of_pos (by decide),
    List.dropWhile_cons_of_neg (by simp [firstNotBlank])]
  simp only
  rw [List.takeWhile_append_of_pos inKey, List.takeWhile_cons_of_neg (by decide),
    List.dropWhile_append_of_pos inKey, List.dropWhile_cons_of_neg (by decide), List.append_nil,
    notFound, isEquals]
  simp only [bind, Except.bind, isValue]
  rfl

end Attribute

namespace Tag

theorem readAttributes_flatMap (element : String) (line length : Nat) (earlier : List Attribute)
    {attributes : List Written.Attribute}
    (isNew : ∀ a ∈ attributes, ∀ b ∈ earlier, b.key ≠ a.name.chars)
    (distinct : (attributes.map (·.name.chars)).Nodup) :
    readAttributes element line length earlier (attributes.flatMap Written.Attribute.chars) =
      .ok (attributes.map fun a => (a.name.text, a.value)) := by
  induction attributes generalizing earlier with
  | nil =>
    rw [List.flatMap_nil, readAttributes]
    rfl
  | cons a attributes ih =>
    rw [List.map_cons, List.nodup_cons] at distinct
    obtain ⟨position, isNext⟩ := Attribute.next?_append length
      (isNew a List.mem_cons_self) (attributes.flatMap Written.Attribute.chars)
    -- For the later attributes this one is an earlier one, and names differ within the tag.
    have stillNew (b : Written.Attribute) (isMem : b ∈ attributes) :
        ∀ c ∈ ⟨a.name.chars, position, escape a.value.toList⟩ :: earlier, c.key ≠ b.name.chars := by
      rintro c (_ | ⟨_, isEarlier⟩)
      · exact fun same => distinct.1 (List.mem_map.mpr ⟨b, isMem, same.symm⟩)
      · exact isNew b (List.mem_cons_of_mem a isMem) c isEarlier
    have later := ih _ stillNew distinct.2
    rw [List.flatMap_cons, readAttributes]
    split
    · rename_i failed
      rw [isNext] at failed
      cases failed
    · rename_i ended
      rw [isNext] at ended
      cases ended
    · rename_i first rest found
      rw [isNext] at found
      cases found
      simp only [Reference.decode_escape, later, bind, Except.bind, String.ofList_toList]
      rfl

/-- A written tag says its name and its attributes. -/
theorem read_startTag (line : Nat) (t : StartTag) :
    read line t.chars = .ok { t.tag with line := line } := by
  have inName (c : Char) (isMem : c ∈ t.name.chars) : (!isSpace c) = true := by
    rw [not_isSpace_of_isNameChar (t.name.isNameChar_of_mem isMem)]
    rfl
  -- The name ends before the blank of the first attribute, or with the tag.
  have afterName : (t.attributes.flatMap Written.Attribute.chars).takeWhile (!isSpace ·) = [] ∧
      (t.attributes.flatMap Written.Attribute.chars).dropWhile (!isSpace ·) =
        t.attributes.flatMap Written.Attribute.chars := by
    cases t.attributes with
    | nil => exact ⟨rfl, rfl⟩
    | cons a attributes => exact ⟨rfl, rfl⟩
  have attributes := readAttributes_flatMap t.name.text line (byteLength t.chars) []
    (by simp) t.distinct
  rw [read, StartTag.chars, List.takeWhile_append_of_pos inName,
    List.dropWhile_append_of_pos inName, afterName.1, afterName.2, List.append_nil, ← Name.text,
    ← StartTag.chars, attributes]
  rfl

end Tag

end Stencil.Markup
