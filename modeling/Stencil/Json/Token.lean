import Stencil.Json.Number
import Stencil.Text.Blank

/-!
# Tokens of a JSON text

A JSON text is cut into punctuation, strings and other scalars. A piece that is none of these is a
token as well, one that holds a fault: whether the fault counts depends on whether anything could
have stood at that place.

## Main definitions

* `Token`: a piece of a JSON text and the byte at which it starts
* `Token.scan`: all tokens of a text
-/

namespace Stencil.Json

open Stencil.Text
open Number (length_lt_of_read)

/-- What a token is. A piece that cannot be read is a string that breaks off or is malformed, or
anything else that is no token. -/
inductive Lexical where
  | openArray
  | closeArray
  | openObject
  | closeObject
  | comma
  | colon
  | string (value : String)
  | scalar (value : Json)
  | badString (fault : Fault)
  | bad (fault : Fault)
deriving Repr

/-- A piece of a JSON text, and the byte at which it starts. -/
structure Token where
  lexical : Lexical
  start : Nat
deriving Repr

namespace Token

/-- The value of a hexadecimal digit. -/
def hexValue? (c : Char) : Option Nat :=
  if '0' ≤ c ∧ c ≤ '9' then some (c.toNat - '0'.toNat)
  else if 'a' ≤ c ∧ c ≤ 'f' then some (c.toNat - 'a'.toNat + 10)
  else if 'A' ≤ c ∧ c ≤ 'F' then some (c.toNat - 'A'.toNat + 10)
  else none

/-- The number that four hexadecimal digits denote. -/
def hexNumber? (digits : List Char) : Option Nat := do
  let values ← digits.mapM hexValue?
  return values.foldl (fun value digit => value * 16 + digit) 0

/-- Reads four hexadecimal digits at byte `offset`. Four bytes must be there, whatever they
are. -/
def readHex (offset : Nat) (s : List Char) : Except Fault Nat :=
  let taken := s.take 4
  if byteLength taken < 4 then .error ⟨.stringCutOff, offset + byteLength taken⟩
  else match hexNumber? taken with
    | some value => .ok value
    | none => .error ⟨.badEscape, offset + 4⟩

/-- Reads the second half of a surrogate pair, `\u` and four digits, at byte `offset`. -/
def readLowSurrogate (offset : Nat) : List Char → Except Fault Nat
  | [] => .error ⟨.stringCutOff, offset⟩
  | '\\' :: s =>
    match s with
    | [] => .error ⟨.stringCutOff, offset + 1⟩
    | 'u' :: s => do
      let low ← readHex (offset + 2) s
      if 0xDC00 ≤ low ∧ low ≤ 0xDFFF then return low
      else .error ⟨.loneSurrogate, offset + 6⟩
    | _ => .error ⟨.escapeCutOff, offset + 2⟩
  | _ => .error ⟨.escapeCutOff, offset + 1⟩

/-- Reads what follows `\u` at byte `offset`: the character, and the number of characters, all of
them ASCII, that denote it. -/
def readUnicode (offset : Nat) (s : List Char) : Except Fault (Char × Nat) := do
  let code ← readHex offset s
  if 0xDC00 ≤ code ∧ code ≤ 0xDFFF then .error ⟨.loneSurrogate, offset + 4⟩
  else if 0xD800 ≤ code ∧ code ≤ 0xDBFF then
    let low ← readLowSurrogate (offset + 4) (s.drop 4)
    return (Char.ofNat ((code - 0xD800) * 0x400 + (low - 0xDC00) + 0x10000), 10)
  else return (Char.ofNat code, 4)

/-- Reads what follows a backslash at byte `offset`: the character, and the number of characters,
all of them ASCII, that denote it. -/
def readEscape (offset : Nat) : List Char → Except Fault (Char × Nat)
  | [] => .error ⟨.stringCutOff, offset⟩
  | '"' :: _ => .ok ('"', 1)
  | '\\' :: _ => .ok ('\\', 1)
  | '/' :: _ => .ok ('/', 1)
  | 'b' :: _ => .ok ('\x08', 1)
  | 'f' :: _ => .ok ('\x0c', 1)
  | 'n' :: _ => .ok ('\n', 1)
  | 'r' :: _ => .ok ('\r', 1)
  | 't' :: _ => .ok ('\t', 1)
  | 'u' :: s => do
    let (c, size) ← readUnicode (offset + 1) s
    return (c, size + 1)
  | _ => .error ⟨.badEscape, offset + 1⟩

/-- Reads the rest of a string at byte `offset`: its characters, the offset after the closing
quote, and what stands there. -/
def readString (offset : Nat) : List Char → Except Fault (List Char × Nat × List Char)
  | [] => .error ⟨.stringCutOff, offset⟩
  | c :: s =>
    if c = '"' then .ok ([], offset + 1, s)
    else if c = '\\' then
      match readEscape (offset + 1) s with
      | .error fault => .error fault
      | .ok (denoted, size) => do
        let (value, rest) ← readString (offset + 1 + size) (s.drop size)
        return (denoted :: value, rest)
    else if c.toNat < 0x20 then .error ⟨.controlCharacter, offset + 1⟩
    else do
      let (value, rest) ← readString (offset + c.utf8Size) s
      return (c :: value, rest)
termination_by s => s.length
decreasing_by all_goals simp only [List.length_drop, List.length_cons]; omega

/-- Reads the rest of a word at byte `offset`: the offset after it, and what stands there. -/
def readWord (offset : Nat) : List Char → List Char → Except Fault (Nat × List Char)
  | [], s => .ok (offset, s)
  | _ :: _, [] => .error ⟨.valueCutOff, offset⟩
  | letter :: word, c :: s =>
    if c = letter then readWord (offset + 1) word s else .error ⟨.wordExpected, offset + 1⟩

/-- What comes of reading a scalar: it, or the fault, after which nothing is read. -/
def ofRead {α : Type} (lexical : α → Lexical) (fail : Fault → Lexical) :
    Except Fault (α × Nat × List Char) → Lexical × Nat × List Char
  | .ok (value, rest) => (lexical value, rest)
  | .error fault => (fail fault, fault.read, [])

/-- The token that starts with `c` at byte `offset`, with the offset after it and what stands
there. -/
def next (offset : Nat) (c : Char) (s : List Char) : Lexical × Nat × List Char :=
  let word (value : Json) (letters : List Char) :=
    ofRead (fun _ => .scalar value) .bad
      ((readWord (offset + 1) letters s).map fun rest => ((), rest))
  match c with
  | '[' => (.openArray, offset + 1, s)
  | ']' => (.closeArray, offset + 1, s)
  | '\x7b' => (.openObject, offset + 1, s)
  | '\x7d' => (.closeObject, offset + 1, s)
  | ',' => (.comma, offset + 1, s)
  | ':' => (.colon, offset + 1, s)
  | '"' => ofRead (.string ∘ String.ofList) .badString (readString (offset + 1) s)
  | 'n' => word .null ['u', 'l', 'l']
  | 't' => word (.bool true) ['r', 'u', 'e']
  | 'f' => word (.bool false) ['a', 'l', 's', 'e']
  | c =>
    if c = '-' ∨ c.isDigit then
      ofRead (.scalar ∘ .number) .bad (Number.read offset (c :: s))
    else (.bad ⟨.valueExpected, offset + 1⟩, offset + 1, [])

/-! ### What follows a token is shorter than what begins with it -/

theorem length_lt_of_readString {offset stop : Nat} {s value rest : List Char}
    (h : readString offset s = .ok (value, stop, rest)) : rest.length < s.length := by
  fun_induction readString offset s generalizing value stop rest with
  | case1 => simp at h
  | case2 =>
    simp only [Except.ok.injEq, Prod.mk.injEq] at h
    simp [h.2.2]
  | case3 => simp at h
  | case4 =>
    rename_i ih
    simp only [bind, Except.bind, pure, Except.pure] at h
    split at h
    · simp at h
    · rename_i found
      simp only [Except.ok.injEq, Prod.mk.injEq] at h
      have := ih found
      simp only [h.2, List.length_drop, List.length_cons] at this ⊢
      omega
  | case5 => simp at h
  | case6 =>
    rename_i ih
    simp only [bind, Except.bind, pure, Except.pure] at h
    split at h
    · simp at h
    · rename_i found
      simp only [Except.ok.injEq, Prod.mk.injEq] at h
      have := ih found
      simp only [h.2, List.length_cons] at this ⊢
      omega

theorem length_le_of_readWord {offset stop : Nat} {word s rest : List Char}
    (h : readWord offset word s = .ok (stop, rest)) : rest.length ≤ s.length := by
  induction word generalizing offset s with
  | nil =>
    simp only [readWord, Except.ok.injEq, Prod.mk.injEq] at h
    simp [h.2]
  | cons letter word ih =>
    cases s with
    | nil => simp [readWord] at h
    | cons c s =>
      simp only [readWord] at h
      split at h
      · have := ih h
        rw [List.length_cons]
        omega
      · simp at h

theorem length_ofRead_le {α : Type} {lexical : α → Lexical} {fail : Fault → Lexical}
    {result : Except Fault (α × Nat × List Char)} {limit : Nat}
    (h : ∀ value stop rest, result = .ok (value, stop, rest) → rest.length ≤ limit) :
    (ofRead lexical fail result).2.2.length ≤ limit := by
  unfold ofRead
  split
  · exact h _ _ _ rfl
  · simp

theorem length_next_le (offset : Nat) (c : Char) (s : List Char) :
    (next offset c s).2.2.length ≤ s.length := by
  have word (value : Json) (letters : List Char) :
      (ofRead (fun _ => .scalar value) .bad
        ((readWord (offset + 1) letters s).map fun rest => ((), rest))).2.2.length ≤
        s.length := by
    refine length_ofRead_le fun _ stop rest h => ?_
    cases found : readWord (offset + 1) letters s with
    | error fault => simp [found, Except.map] at h
    | ok result =>
      simp only [found, Except.map, Except.ok.injEq, Prod.mk.injEq, true_and] at h
      exact length_le_of_readWord (h ▸ found)
  unfold next
  split
  all_goals first
    | exact Nat.le_refl _
    | exact word _ _
    | exact length_ofRead_le fun _ _ _ h => Nat.le_of_lt (length_lt_of_readString h)
    | skip
  split
  · exact length_ofRead_le fun _ _ _ h => Nat.le_of_lt_succ (length_lt_of_read h)
  · simp

/-- All tokens of a text that starts at byte `offset`, and the offset of its end; after a fault
nothing is read. -/
def scan (offset : Nat) : List Char → List Token × Nat
  | [] => ([], offset)
  | c :: s =>
    if isSpace c then scan (offset + 1) s
    else
      let (tokens, stop) := scan (next offset c s).2.1 (next offset c s).2.2
      (⟨(next offset c s).1, offset⟩ :: tokens, stop)
termination_by s => s.length
decreasing_by
  · simp
  · have := length_next_le offset c s
    simp only [List.length_cons]
    omega

end Token

end Stencil.Json
