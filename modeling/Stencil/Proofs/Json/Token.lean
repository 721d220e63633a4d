import Mathlib.Data.List.Basic
import Mathlib.Tactic.IntervalCases
import Mathlib.Tactic.SplitIfs
import Stencil.Json.Token
import Stencil.Json.Writer

/-!
# Tokens that are written are read

A string in quotes is read as the string it was written for, whatever its characters: those that
have to be escaped are, and an escape denotes the character it stands for. The numeral of a whole
number of 64 bits is read as this number, unless what follows continues it.

## Main definitions

* `Token.Ends`: what follows does not continue a number
* `Json.Number.IsExact`: numbers that a text preserves, the whole ones of 64 bits

## Main results

* `Token.readsString_flatMap_escapeChar`: a string in quotes
* `Number.read_text`: the numeral of a whole number
-/

namespace Stencil.Json

open Stencil.Text

namespace Token

/-! ### Strings -/

/-- The rest of a string is read, wherever it starts: its characters, and what follows it. -/
def ReadsString (s value rest : List Char) : Prop :=
  ∀ offset, ∃ stop, readString offset s = .ok (value, stop, rest)

namespace ReadsString

variable {s value rest : List Char} {c : Char}

theorem quote (rest : List Char) : ReadsString ('"' :: rest) [] rest := by
  intro offset
  exact ⟨offset + 1, by simp [readString]⟩

theorem plain (noQuote : c ≠ '"') (noBackslash : c ≠ '\\') (noControl : ¬ c.toNat < 0x20)
    (reads : ReadsString s value rest) : ReadsString (c :: s) (c :: value) rest := by
  intro offset
  obtain ⟨stop, isRest⟩ := reads (offset + c.utf8Size)
  refine ⟨stop, ?_⟩
  rw [readString, if_neg noQuote, if_neg noBackslash, if_neg noControl, isRest]
  rfl

/-- An escape is read as the character that it denotes. -/
theorem escape (letters : List Char)
    (denotes : ∀ offset, readEscape offset (letters ++ s) = .ok (c, letters.length))
    (reads : ReadsString s value rest) : ReadsString ('\\' :: letters ++ s) (c :: value) rest := by
  intro offset
  obtain ⟨stop, isRest⟩ := reads (offset + 1 + letters.length)
  refine ⟨stop, ?_⟩
  rw [List.cons_append, readString, if_neg (by decide), if_pos rfl, denotes]
  simp only [List.drop_left, isRest]
  rfl

end ReadsString

/-- Four hexadecimal digits write the number of a control character. -/
theorem hexNumber?_hexDigit : ∀ n < 0x20,
    hexNumber? ['0', '0', hexDigit (n / 16), hexDigit (n % 16)] = some n ∧
      byteLength ['0', '0', hexDigit (n / 16), hexDigit (n % 16)] = 4 := by
  decide

theorem readEscape_control {c : Char} (control : c.toNat < 0x20) (offset : Nat) (s : List Char) :
    readEscape offset
        (['u', '0', '0', hexDigit (c.toNat / 16), hexDigit (c.toNat % 16)] ++ s) = .ok (c, 5) := by
  obtain ⟨isNumber, fourBytes⟩ := hexNumber?_hexDigit c.toNat control
  have isHex : readHex (offset + 1)
      (['0', '0', hexDigit (c.toNat / 16), hexDigit (c.toNat % 16)] ++ s) = .ok c.toNat := by
    have isTaken : (['0', '0', hexDigit (c.toNat / 16), hexDigit (c.toNat % 16)] ++ s).take 4 =
        ['0', '0', hexDigit (c.toNat / 16), hexDigit (c.toNat % 16)] := rfl
    simp only [readHex, isTaken, fourBytes, isNumber, Nat.lt_irrefl, if_false]
  have noLow : ¬ (0xDC00 ≤ c.toNat ∧ c.toNat ≤ 0xDFFF) := by omega
  have noHigh : ¬ (0xD800 ≤ c.toNat ∧ c.toNat ≤ 0xDBFF) := by omega
  have isUnicode : readUnicode (offset + 1)
      (['0', '0', hexDigit (c.toNat / 16), hexDigit (c.toNat % 16)] ++ s) = .ok (c, 4) := by
    simp only [readUnicode, isHex, bind, Except.bind, pure, Except.pure, if_neg noLow,
      if_neg noHigh, Char.ofNat_toNat]
  simp only [List.cons_append] at isUnicode ⊢
  simp only [readEscape, isUnicode, bind, Except.bind, pure, Except.pure]

/-- A character is read as it was written. -/
theorem ReadsString.written {s value rest : List Char} (c : Char)
    (reads : ReadsString s value rest) : ReadsString (escapeChar c ++ s) (c :: value) rest := by
  unfold escapeChar
  -- One case for each character with an escape of its own, and then the control characters.
  split_ifs with quote backslash backspace feed newline return' tab control
  · exact quote ▸ reads.escape ['"'] fun _ => rfl
  · exact backslash ▸ reads.escape ['\\'] fun _ => rfl
  · exact backspace ▸ reads.escape ['b'] fun _ => rfl
  · exact feed ▸ reads.escape ['f'] fun _ => rfl
  · exact newline ▸ reads.escape ['n'] fun _ => rfl
  · exact return' ▸ reads.escape ['r'] fun _ => rfl
  · exact tab ▸ reads.escape ['t'] fun _ => rfl
  · exact reads.escape _ fun offset => readEscape_control control offset s
  · exact reads.plain quote backslash control

/-- A string that was written, up to the quote that ends it. -/
theorem readsString_flatMap_escapeChar (value rest : List Char) :
    ReadsString (value.flatMap escapeChar ++ '"' :: rest) value rest := by
  induction value with
  | nil => exact .quote rest
  | cons c value ih =>
    rw [List.flatMap_cons, List.append_assoc]
    exact ih.written c

/-! ### Whole numbers -/

/-- Whether a character may continue a number. -/
def continuesNumber (c : Char) : Bool := c.isDigit || c = '.' || c = 'e' || c = 'E'

/-- The text is empty or begins with a character that does not continue a number. -/
def Ends (s : List Char) : Prop := ∀ c ∈ s.head?, continuesNumber c = false

namespace Ends

variable {s t : List Char}

theorem nil : Ends [] := by
  intro c isHead
  cases isHead

theorem cons {c : Char} (ends : continuesNumber c = false) (s : List Char) : Ends (c :: s) := by
  rintro _ ⟨⟩
  exact ends

theorem append (first : Ends s) (second : Ends t) : Ends (s ++ t) := by
  cases s with
  | nil => exact second
  | cons c s => exact first

/-- Blanks do not continue a number. -/
theorem of_isSpace (blanks : ∀ c ∈ s, isSpace c = true) : Ends s := by
  intro c isHead
  have blank := blanks c (List.mem_of_head? isHead)
  simp only [isSpace, Bool.or_eq_true, decide_eq_true_eq] at blank
  rcases blank with ((rfl | rfl) | rfl) | rfl <;> decide

theorem isDigit_eq_false {c : Char} (ends : Ends (c :: s)) : c.isDigit = false := by
  have noNumber := ends c rfl
  simp only [continuesNumber, Bool.or_eq_false_iff] at noNumber
  exact noNumber.1.1.1

theorem takeWhile_isDigit (ends : Ends s) : s.takeWhile Char.isDigit = [] := by
  cases s with
  | nil => rfl
  | cons c s => rw [List.takeWhile_cons_of_neg (by simp [ends.isDigit_eq_false])]

theorem dropWhile_isDigit (ends : Ends s) : s.dropWhile Char.isDigit = s := by
  cases s with
  | nil => rfl
  | cons c s => rw [List.dropWhile_cons_of_neg (by simp [ends.isDigit_eq_false])]

end Ends

/-- A token that begins with a digit or a sign is a number. -/
theorem next_of_number {c : Char} (starts : c = '-' ∨ c.isDigit = true) (offset : Nat)
    (s : List Char) :
    next offset c s = ofRead (.scalar ∘ .number) .bad (Number.read offset (c :: s)) := by
  unfold next
  split
  case h_11 => exact if_pos starts
  all_goals exact absurd starts (by decide)

theorem not_isSpace_of_number {c : Char} (starts : c = '-' ∨ c.isDigit = true) :
    isSpace c = false := by
  rcases starts with rfl | isDigit
  · rfl
  · by_contra blank
    simp only [isSpace, Bool.not_eq_false, Bool.or_eq_true, decide_eq_true_eq] at blank
    rcases blank with ((rfl | rfl) | rfl) | rfl <;> exact absurd isDigit (by decide)

end Token

namespace Number

open Token

theorem digitValue_eq (c : Char) : digitValue c = c.toNat - '0'.toNat := rfl

theorem le_ofDigitChars (digits : List Char) (init : Nat) :
    init ≤ Nat.ofDigitChars 10 digits init := by
  induction digits generalizing init with
  | nil => exact Nat.le_refl init
  | cons c digits ih =>
    rw [Nat.ofDigitChars_cons]
    have := ih (10 * init + (c.toNat - '0'.toNat))
    omega

/-- All digits of a number that fits are taken. -/
theorem takeDigits_of_fits (digits : List Char) (init : Nat)
    (fits : Nat.ofDigitChars 10 digits init < 2 ^ 64) :
    takeDigits init digits = (Nat.ofDigitChars 10 digits init, digits.length) := by
  induction digits generalizing init with
  | nil => rfl
  | cons c digits ih =>
    rw [Nat.ofDigitChars_cons] at fits ⊢
    have isExtended : init * 10 + digitValue c = 10 * init + (c.toNat - '0'.toNat) := by
      rw [digitValue_eq, Nat.mul_comm]
    -- What has been read never exceeds the whole number, so the next digit is taken.
    have below : init * 10 + digitValue c < Nat.pow 2 64 := by
      rw [isExtended]
      exact Nat.lt_of_le_of_lt (le_ofDigitChars digits _) fits
    rw [takeDigits, if_pos below, isExtended, ih _ fits]
    rfl

/-- Only the numeral of zero begins with a zero. -/
theorem head?_toDigits_ne {n : Nat} (positive : 0 < n) : (Nat.toDigits 10 n).head? ≠ some '0' := by
  induction n using Nat.strongRecOn with
  | ind n ih =>
    rw [Nat.toDigits_eq_if (by decide)]
    split
    · rename_i small
      interval_cases n <;> decide
    · rename_i large
      rw [List.head?_append_of_ne_nil _ Nat.toDigits_ne_nil]
      exact ih (n / 10) (by omega) (by omega)

/-- The numeral of a whole number is read, if nothing continues it. -/
theorem readDigits_toDigits (negative : Bool) {n : Nat} (fits : n < 2 ^ 64) (offset : Nat)
    {rest : List Char} (ends : Ends rest) :
    readDigits negative offset (Nat.toDigits 10 n ++ rest) =
      .ok (whole negative n, offset + (Nat.toDigits 10 n).length, rest) := by
  have areDigits : ∀ c ∈ Nat.toDigits 10 n, c.isDigit = true := fun c member =>
    Nat.isDigit_of_mem_toDigits (by decide) (by decide) member
  have isDigits : (Nat.toDigits 10 n ++ rest).takeWhile Char.isDigit = Nat.toDigits 10 n := by
    rw [List.takeWhile_append_of_pos areDigits, ends.takeWhile_isDigit, List.append_nil]
  have isRest : (Nat.toDigits 10 n ++ rest).dropWhile Char.isDigit = rest := by
    rw [List.dropWhile_append_of_pos areDigits, ends.dropWhile_isDigit]
  have noZero : ¬ ((Nat.toDigits 10 n).head? = some '0' ∧ (Nat.toDigits 10 n).length ≠ 1) := by
    rintro ⟨zeroFirst, long⟩
    rcases Nat.eq_zero_or_pos n with rfl | positive
    · exact long rfl
    · exact head?_toDigits_ne positive zeroFirst
  have taken : takeDigits 0 (Nat.toDigits 10 n) = (n, (Nat.toDigits 10 n).length) := by
    have isNumber := Nat.ofDigitChars_toDigits (b := 10) (n := n) (by decide) (by decide)
    rw [takeDigits_of_fits _ 0 (isNumber.symm ▸ fits), isNumber]
  have nonempty : (Nat.toDigits 10 n).isEmpty = false := by
    rw [List.isEmpty_eq_false_iff]
    exact Nat.toDigits_ne_nil
  unfold readDigits
  simp only [isDigits, isRest, nonempty, Bool.false_eq_true, if_false, if_neg noZero, taken,
    Nat.sub_self]
  -- What follows is neither a fraction nor an exponent.
  split
  · exact absurd (ends '.' rfl) (by decide)
  · exact absurd (ends 'e' rfl) (by decide)
  · exact absurd (ends 'E' rfl) (by decide)
  · rfl

/-- Numbers that a text preserves: the whole ones that fit 64 bits, with or without a sign. -/
def IsExact : Number → Prop
  | .integer value => -2 ^ 63 ≤ value ∧ value < 2 ^ 64
  | .float _ => False

theorem text_ofNat (layout : Decimal.Layout) (n : Nat) :
    (text layout (.integer (.ofNat n))).toList = Nat.toDigits 10 n :=
  Nat.toList_repr

theorem text_negSucc (layout : Decimal.Layout) (n : Nat) :
    (text layout (.integer (.negSucc n))).toList = '-' :: Nat.toDigits 10 (n + 1) := by
  have isText : text layout (.integer (.negSucc n)) = "-" ++ (n + 1).repr := rfl
  rw [isText, String.toList_append, Nat.toList_repr]
  rfl

theorem read_of_noSign {s : List Char} (noSign : s.head? ≠ some '-') (offset : Nat) :
    read offset s = readDigits false offset s := by
  unfold read
  split
  · exact absurd rfl noSign
  · rfl

/-- The numeral of a whole number begins with a digit or a sign. -/
theorem exists_cons_text {number : Number} (exact : number.IsExact) (layout : Decimal.Layout) :
    ∃ c s, (number.text layout).toList = c :: s ∧ (c = '-' ∨ c.isDigit = true) := by
  cases number with
  | float x => exact exact.elim
  | integer value =>
    cases value with
    | ofNat n =>
      obtain ⟨c, digits, isCons⟩ :=
        List.exists_cons_of_ne_nil (Nat.toDigits_ne_nil (n := n) (b := 10))
      refine ⟨c, digits, (text_ofNat layout n).trans isCons, .inr ?_⟩
      exact Nat.isDigit_of_mem_toDigits (by decide) (by decide) (isCons ▸ List.mem_cons_self)
    | negSucc n => exact ⟨'-', _, text_negSucc layout n, .inl rfl⟩

/-- A whole number of 64 bits is read as it was written, if nothing continues it. -/
theorem read_text {number : Number} (exact : number.IsExact) (layout : Decimal.Layout)
    (offset : Nat) {rest : List Char} (ends : Ends rest) :
    ∃ stop, read offset ((number.text layout).toList ++ rest) = .ok (number, stop, rest) := by
  cases number with
  | float x => exact exact.elim
  | integer value =>
    obtain ⟨low, high⟩ := exact
    cases value with
    | ofNat n =>
      have noSign : (Nat.toDigits 10 n).head? ≠ some '-' := by
        intro isHead
        have isDigit := Nat.isDigit_of_mem_toDigits (b := 10) (n := n) (by decide) (by decide)
          (List.mem_of_head? isHead)
        exact absurd isDigit (by decide)
      have fits : n < 2 ^ 64 := Int.ofNat_lt.mp high
      rw [text_ofNat, read_of_noSign]
      · exact ⟨_, readDigits_toDigits false fits offset ends⟩
      · rwa [List.head?_append_of_ne_nil _ Nat.toDigits_ne_nil]
    | negSucc n =>
      have fits : n + 1 ≤ 2 ^ 63 := by omega
      have isWhole : whole true (n + 1) = .integer (.negSucc n) := by
        rw [whole, if_pos rfl, if_pos ⟨Nat.succ_pos n, fits⟩]
        rfl
      rw [text_negSucc, ← isWhole]
      exact ⟨_, readDigits_toDigits true (Nat.lt_of_le_of_lt fits (by decide)) (offset + 1) ends⟩

end Number

end Stencil.Json
