import Mathlib.Data.List.Basic
import Stencil.Text.Literal

/-!
# Reading literals

A reader of the generated code takes a literal up to the first double quote that no backslash stands
before, and undoes the five escapes. What it reads from the literal of a value is the value,
whatever follows the literal. So literals with separators between them can be told apart, even if
what looks like a separator or the end of a literal stands within one.

## Main definitions

* `readInside?`, `readLiteral?`: the value of the literal at the start of a text, and what follows
* `readItems?`: the values of literals with a comma and a blank between neighbours

## Main results

* `readLiteral?_quote`: a literal reads as the value that it denotes
* `readItems?_intercalate`: so do several of them
-/

namespace Stencil.Text

/-- The character that a letter after a backslash stands for. -/
def unescapeLetter? : Char → Option Char
  | '\\' => some '\\'
  | '\'' => some '\''
  | '"' => some '"'
  | 'n' => some '\n'
  | 't' => some '\t'
  | _ => none

/-- Reads the inside of a literal up to the quote that closes it. -/
def readInside? : List Char → Option (List Char × List Char)
  | [] => none
  | '"' :: rest => some ([], rest)
  | ['\\'] => none
  | '\\' :: letter :: s =>
    match unescapeLetter? letter, readInside? s with
    | some c, some (value, rest) => some (c :: value, rest)
    | _, _ => none
  | c :: s => (readInside? s).map fun (value, rest) => (c :: value, rest)

/-- Reads the literal at the start of a text. -/
def readLiteral? : List Char → Option (List Char × List Char)
  | '"' :: s => readInside? s
  | _ => none

theorem length_lt_of_readInside? {s value rest : List Char}
    (read : readInside? s = some (value, rest)) : rest.length < s.length := by
  fun_induction readInside? s generalizing value with
  | case1 | case3 => cases read
  | case2 rest' =>
    cases read
    exact Nat.lt_succ_self _
  | case4 letter s c value' rest' inside isLetter ih =>
    cases read
    have := ih inside
    simp only [List.length_cons]
    omega
  | case5 => cases read
  | case6 c s notQuote notLast notEscape ih =>
    obtain ⟨⟨value', rest'⟩, inside, same⟩ := Option.map_eq_some_iff.mp read
    cases same
    have := ih inside
    simp only [List.length_cons]
    omega

theorem length_lt_of_readLiteral? {s value rest : List Char}
    (read : readLiteral? s = some (value, rest)) : rest.length < s.length := by
  unfold readLiteral? at read
  split at read
  · have := length_lt_of_readInside? read
    simp only [List.length_cons]
    omega
  · cases read

/-- Reads literals with a comma and a blank between neighbours, at least one of them. -/
def readLiterals? (s : List Char) : Option (List String) :=
  match _ : readLiteral? s with
  | some (first, []) => some [String.ofList first]
  | some (first, ',' :: ' ' :: rest) => (readLiterals? rest).map (String.ofList first :: ·)
  | _ => none
termination_by s.length
decreasing_by
  have := length_lt_of_readLiteral? ‹_›
  simp only [List.length_cons] at this
  omega

/-- Reads a list of literals, which may be empty. -/
def readItems? (text : String) : Option (List String) :=
  if text = "" then some [] else readLiterals? text.toList

/-! ### Reading what was quoted -/

theorem unescapeLetter?_of_escapeLetter? {c letter : Char}
    (escaped : escapeLetter? c = some letter) : unescapeLetter? letter = some c := by
  unfold escapeLetter? at escaped
  split at escaped
  all_goals cases escaped
  all_goals rfl

/-- What is not escaped neither closes a literal nor begins an escape. -/
theorem ne_of_escapeLetter?_eq_none {c : Char} (plain : escapeLetter? c = none) :
    c ≠ '"' ∧ c ≠ '\\' := by
  constructor
  · rintro rfl
    cases plain
  · rintro rfl
    cases plain

theorem readInside?_of_plain {c : Char} (notQuote : c ≠ '"') (notEscape : c ≠ '\\')
    (s : List Char) :
    readInside? (c :: s) = (readInside? s).map fun (value, rest) => (c :: value, rest) := by
  rw [readInside?]
  · exact notQuote
  · intro isEscape
    exact absurd isEscape notEscape
  · intro letter s isEscape
    exact absurd isEscape notEscape

/-- The inside of a literal reads as the value that was escaped. -/
theorem readInside?_escape (s rest : List Char) :
    readInside? (escape s ++ '"' :: rest) = some (s, rest) := by
  induction s with
  | nil => rfl
  | cons c s ih =>
    rw [escape]
    cases escaped : escapeLetter? c with
    | some letter =>
      simp only [List.cons_append, readInside?, unescapeLetter?_of_escapeLetter? escaped, ih]
    | none =>
      obtain ⟨notQuote, notEscape⟩ := ne_of_escapeLetter?_eq_none escaped
      simp only [List.cons_append, readInside?_of_plain notQuote notEscape, ih, Option.map_some]

/-- A literal reads as the value that it denotes, whatever follows it. -/
theorem readLiteral?_quote (value : String) (rest : List Char) :
    readLiteral? ((quote value).toList ++ rest) = some (value.toList, rest) := by
  have read := readInside?_escape value.toList rest
  rw [quote, String.toList_ofList]
  simpa [readLiteral?] using read

theorem readLiterals?_of_last {s first : List Char} (read : readLiteral? s = some (first, [])) :
    readLiterals? s = some [String.ofList first] := by
  rw [readLiterals?]
  split <;> simp_all

theorem readLiterals?_of_more {s first rest : List Char}
    (read : readLiteral? s = some (first, ',' :: ' ' :: rest)) :
    readLiterals? s = (readLiterals? rest).map (String.ofList first :: ·) := by
  rw [readLiterals?]
  split <;> simp_all

theorem readLiterals?_intercalate (first : String) (others : List String) :
    readLiterals? (", ".intercalate ((first :: others).map quote)).toList =
      some (first :: others) := by
  induction others generalizing first with
  | nil =>
    have read := readLiteral?_quote first []
    rw [List.append_nil] at read
    rw [List.map_singleton, String.intercalate_singleton, readLiterals?_of_last read,
      String.ofList_toList]
  | cons second others ih =>
    -- What follows the first literal begins with a separator, and its quotes are its own.
    have separator : ", ".toList = [',', ' '] := rfl
    have read := readLiteral?_quote first
      (',' :: ' ' :: (", ".intercalate ((second :: others).map quote)).toList)
    have isText : (", ".intercalate ((first :: second :: others).map quote)).toList =
        (quote first).toList ++
          ',' :: ' ' :: (", ".intercalate ((second :: others).map quote)).toList := by
      simp only [List.map_cons, String.intercalate_cons_cons, String.toList_append, separator,
        List.append_assoc, List.cons_append, List.nil_append]
    rw [isText, readLiterals?_of_more read, ih, Option.map_some, String.ofList_toList]

/-- Literals with separators between them read as the values that they denote. -/
theorem readItems?_intercalate (values : List String) :
    readItems? (", ".intercalate (values.map quote)) = some values := by
  cases values with
  | nil => rfl
  | cons first others =>
    have read := readLiterals?_intercalate first others
    unfold readItems?
    split
    · rename_i isEmpty
      rw [isEmpty] at read
      simp [readLiterals?, readLiteral?] at read
    · exact read

end Stencil.Text
