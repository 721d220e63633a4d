import Stencil.Proofs.Text.Literal
import Stencil.Template.Directive

/-!
# Where literals end

To find the end of a literal one need not know what its escapes mean: a backslash takes the next
character with it, whatever that is, and the first double quote that is not so taken closes the
literal. What is cut off in this way can be given its meaning afterwards. The literal of a value is
cut off whole, whatever follows it, for every quote inside is taken and the last backslash takes
nothing beyond; so no literal begins another one.

## Main definitions

* `takesNext`: whether a backslash takes what comes after a text
* `cutLiteral?`: the inside of the literal at the start of a text, and what follows
* `unescape?`: what the inside of a literal means
* `IsInside`: what can stand inside a literal

## Main results

* `cutInside?_append`: where a text is cut
* `readInside?_eq_bind`: reading is cutting off, and then undoing the escapes
* `Transform.delimited_string`: literals delimit themselves
-/

namespace Stencil

namespace Text

/-- Whether a backslash takes the character after a text; `taken` tells whether one takes the first
character of the text. -/
def takesNext (taken : Bool) (s : List Char) : Bool :=
  s.foldl (fun taken c => !taken && c = '\\') taken

/-- Cuts a text at the first double quote that no backslash takes: what stands before that quote,
and what follows it. -/
def cutInside? (taken : Bool) : List Char → Option (List Char × List Char)
  | [] => none
  | c :: s =>
    if !taken && c = '"' then some ([], s)
    else (cutInside? (!taken && c = '\\') s).map fun (inside, rest) => (c :: inside, rest)

/-- Cuts off the literal at the start of a text. -/
def cutLiteral? : List Char → Option (List Char × List Char)
  | '"' :: s => cutInside? false s
  | _ => none

/-- Undoes the five escapes. -/
def unescape? : List Char → Option (List Char)
  | [] => some []
  | ['\\'] => none
  | '\\' :: letter :: s =>
    match unescapeLetter? letter, unescape? s with
    | some c, some value => some (c :: value)
    | _, _ => none
  | c :: s => (unescape? s).map (c :: ·)

/-- Every double quote in a text is taken by a backslash, and none takes what follows the text. -/
def IsInside (taken : Bool) (s : List Char) : Prop :=
  takesNext taken s = false ∧
    ∀ before after, s = before ++ '"' :: after → takesNext taken before = true

variable {taken : Bool} {c : Char} {s inside : List Char}

theorem isInside_nil : IsInside taken [] ↔ taken = false := by
  simp [IsInside, takesNext]

/-- The first character decides whether the second is taken. -/
theorem isInside_cons :
    IsInside taken (c :: s) ↔ (c = '"' → taken = true) ∧ IsInside (!taken && c = '\\') s := by
  constructor
  · rintro ⟨ends, quotes⟩
    refine ⟨?_, ends, ?_⟩
    · rintro rfl
      exact quotes [] s rfl
    · rintro before after rfl
      exact quotes (c :: before) after rfl
  · rintro ⟨first, ends, quotes⟩
    refine ⟨ends, fun before after isSplit => ?_⟩
    cases before with
    | nil =>
      obtain ⟨rfl, -⟩ := List.cons.inj isSplit
      exact first rfl
    | cons d before =>
      obtain ⟨rfl, isRest⟩ := List.cons.inj isSplit
      exact quotes before after isRest

/-! ### Where a text is cut -/

/-- A text is cut at the first double quote that no backslash takes. -/
theorem cutInside?_append (isInside : IsInside taken inside) (rest : List Char) :
    cutInside? taken (inside ++ '"' :: rest) = some (inside, rest) := by
  induction inside generalizing taken with
  | nil =>
    obtain rfl := isInside_nil.mp isInside
    rfl
  | cons c inside ih =>
    obtain ⟨first, others⟩ := isInside_cons.mp isInside
    have goesOn : ¬ (!taken && c = '"') = true := by
      intro closes
      simp only [Bool.and_eq_true, Bool.not_eq_true', decide_eq_true_eq] at closes
      exact Bool.false_ne_true (closes.1.symm.trans (first closes.2))
    rw [List.cons_append, cutInside?, if_neg goesOn, ih others, Option.map_some]

theorem cutInside?_of_plain (notQuote : c ≠ '"') (notEscape : c ≠ '\\') (s : List Char) :
    cutInside? false (c :: s) =
      (cutInside? false s).map fun (inside, rest) => (c :: inside, rest) := by
  simp [cutInside?, notQuote, notEscape]

theorem cutInside?_of_escape (letter : Char) (s : List Char) :
    cutInside? false ('\\' :: letter :: s) =
      (cutInside? false s).map fun (inside, rest) => ('\\' :: letter :: inside, rest) := by
  simp [cutInside?, Option.map_map, Function.comp_def]

theorem unescape?_of_plain (notEscape : c ≠ '\\') (s : List Char) :
    unescape? (c :: s) = (unescape? s).map (c :: ·) := by
  rw [unescape?]
  · intro isEscape
    exact absurd isEscape notEscape
  · intro letter s isEscape
    exact absurd isEscape notEscape

/-- Reading the inside of a literal is cutting it off, and then undoing the escapes. -/
theorem readInside?_eq_bind (s : List Char) :
    readInside? s =
      (cutInside? false s).bind fun cut => (unescape? cut.1).map fun value => (value, cut.2) := by
  fun_induction readInside? s with
  | case1 | case2 | case3 => rfl
  | case4 letter s c value rest read isLetter ih =>
    rw [read, eq_comm, Option.bind_eq_some_iff] at ih
    obtain ⟨⟨inside, rest'⟩, cut, undone⟩ := ih
    obtain ⟨value', meaning, same⟩ := Option.map_eq_some_iff.mp undone
    cases same
    simp [cutInside?_of_escape, cut, unescape?, isLetter, meaning]
  | case5 letter s failed ih =>
    -- A letter that is unknown and an inside that means nothing fail both ways.
    rw [cutInside?_of_escape]
    cases cut : cutInside? false s with
    | none => rfl
    | some found =>
      rw [cut, Option.bind_some] at ih
      cases isLetter : unescapeLetter? letter with
      | none => simp [unescape?, isLetter]
      | some c =>
        cases meaning : unescape? found.1 with
        | none => simp [unescape?, isLetter, meaning]
        | some value => exact absurd (by rw [ih, meaning]; rfl) (failed c value found.2 isLetter)
  | case6 c s notQuote notLast notEscape ih =>
    have isPlain : c ≠ '\\' := by
      rintro rfl
      cases s with
      | nil => exact notLast rfl rfl
      | cons letter s => exact notEscape letter s rfl rfl
    rw [ih, cutInside?_of_plain notQuote isPlain]
    cases cut : cutInside? false s with
    | none => rfl
    | some found => simp [unescape?_of_plain isPlain, Option.map_map, Function.comp_def]

/-! ### The inside of a literal -/

/-- Every quote in what was escaped is taken by a backslash of its own. -/
theorem isInside_escape (s : List Char) : IsInside false (escape s) := by
  induction s with
  | nil => exact isInside_nil.mpr rfl
  | cons c s ih =>
    rw [escape]
    cases escaped : escapeLetter? c with
    | some letter =>
      refine isInside_cons.mpr ⟨fun isQuote => ?_, isInside_cons.mpr ⟨fun _ => rfl, ih⟩⟩
      exact absurd isQuote (by decide)
    | none =>
      obtain ⟨notQuote, notEscape⟩ := ne_of_escapeLetter?_eq_none escaped
      refine isInside_cons.mpr ⟨fun isQuote => absurd isQuote notQuote, ?_⟩
      rw [decide_eq_false notEscape, Bool.and_false]
      exact ih

theorem unescape?_escape (s : List Char) : unescape? (escape s) = some s := by
  have read := readInside?_escape s []
  rw [readInside?_eq_bind, cutInside?_append (isInside_escape s), Option.bind_some] at read
  obtain ⟨value, meaning, same⟩ := Option.map_eq_some_iff.mp read
  cases same
  exact meaning

/-- Newlines and tabs are written as letters. -/
theorem ne_of_mem_escape (member : c ∈ escape s) : c ≠ '\n' ∧ c ≠ '\t' := by
  induction s with
  | nil => cases member
  | cons d s ih =>
    rw [escape] at member
    cases escaped : escapeLetter? d with
    | some letter =>
      simp only [escaped, List.mem_cons] at member
      rcases member with rfl | rfl | later
      · decide
      · -- Whatever is escaped, its letter stands for itself, or is `n` or `t`.
        unfold escapeLetter? at escaped
        split at escaped
        all_goals cases escaped
        all_goals decide
      · exact ih later
    | none =>
      simp only [escaped, List.mem_cons] at member
      rcases member with rfl | later
      · constructor
        · rintro rfl
          cases escaped
        · rintro rfl
          cases escaped
      · exact ih later

theorem toList_quote (value : String) :
    (quote value).toList = '"' :: (escape value.toList ++ ['"']) := by
  rw [quote, String.toList_ofList, List.cons_append]

/-- The literal of a value is cut off whole, whatever follows it. -/
theorem cutLiteral?_quote (value : String) (rest : List Char) :
    cutLiteral? ((quote value).toList ++ rest) = some (escape value.toList, rest) := by
  have cut := cutInside?_append (isInside_escape value.toList) rest
  rw [toList_quote]
  simpa [cutLiteral?] using cut

-- Neither the backslash at the end of the value nor what follows the literal makes it any longer.
example : cutLiteral? (quote "a\\" ++ "\"").toList = some (['a', '\\', '\\'], ['"']) := by decide

/-- A value whose literal begins that of another one is that value. -/
theorem eq_of_isPrefix_quote {value other : String}
    (begins : (quote value).toList <+: (quote other).toList) : value = other := by
  obtain ⟨rest, isOther⟩ := begins
  have read := readLiteral?_quote value rest
  have readOther := readLiteral?_quote other []
  rw [isOther] at read
  rw [List.append_nil, read, Option.some.injEq, Prod.mk.injEq] at readOther
  exact String.toList_inj.mp readOther.1

/-- After the first character, a quote that no backslash takes is the last character. -/
theorem eq_nil_of_quote_eq {value : String} {before after : List Char}
    (isQuote : (quote value).toList = '"' :: (before ++ '"' :: after))
    (free : takesNext false before = false) : after = [] := by
  rw [toList_quote, List.cons.injEq] at isQuote
  rcases List.eq_nil_or_concat after with rfl | ⟨between, last, rfl⟩
  · rfl
  · -- There is more, so the quote stands inside the literal and is taken.
    have isInner : escape value.toList ++ ['"'] = (before ++ '"' :: between) ++ [last] := by
      rw [isQuote.2, List.concat_eq_append, List.append_assoc, List.cons_append]
    have isInside := List.append_inj_left' isInner rfl
    have taken := (isInside_escape value.toList).2 before between isInside
    exact absurd (free.symm.trans taken) Bool.false_ne_true

end Text

namespace Transform

open Text

/-- **Literals delimit themselves.** The `string` transform of a value is a quote, an inside that
means the value, and a quote. Whatever follows it, the literal at the start of the text is cut off
exactly where the transform ends. So values are told apart by their literals, and a literal that
begins another one is the same. There is no newline and no tab in a literal, and no quote after the
first character that no backslash takes, save the last. -/
theorem delimited_string (value : String) :
    (∃ inside, (string.apply value).toList = '"' :: (inside ++ ['"']) ∧
        unescape? inside = some value.toList ∧
        ∀ rest, cutLiteral? ((string.apply value).toList ++ rest) = some (inside, rest)) ∧
      (∀ other, string.apply value = string.apply other → value = other) ∧
      (∀ other, (string.apply value).toList <+: (string.apply other).toList →
        string.apply value = string.apply other) ∧
      ('\n' ∉ (string.apply value).toList ∧ '\t' ∉ (string.apply value).toList) ∧
      ∀ before after, (string.apply value).toList = '"' :: (before ++ '"' :: after) →
        takesNext false before = false → after = [] := by
  have isQuote : string.apply value = quote value := rfl
  refine ⟨⟨escape value.toList, toList_quote value, unescape?_escape _, cutLiteral?_quote value⟩,
    fun other same => ?_, fun other begins => ?_, ?_, fun before after => eq_nil_of_quote_eq⟩
  · have begins : (quote value).toList <+: (string.apply other).toList := same ▸ List.prefix_rfl
    exact eq_of_isPrefix_quote begins
  · rw [eq_of_isPrefix_quote begins]
  · rw [isQuote, toList_quote]
    simp only [List.mem_cons, List.mem_append, List.not_mem_nil, or_false, not_or]
    exact ⟨⟨by decide, fun inside => (ne_of_mem_escape inside).1 rfl, by decide⟩,
      by decide, fun inside => (ne_of_mem_escape inside).2 rfl, by decide⟩

end Transform

end Stencil
