import Stencil.Text.Line

/-!
# Character and entity references

Character data and attribute values may name characters: by one of the five predefined entities,
or by number, decimal (`&#10;`) or hexadecimal (`&#x0A;`). Decoding replaces every reference by
the character it names. A `&` must begin a reference; a `;` elsewhere is text.

## Main definitions

* `ReferenceFault`: why a reference cannot be decoded
* `Reference.decode`: the characters that a run of raw text stands for
-/

namespace Stencil.Markup

open Stencil.Text

/-- Why the number in a character reference names no character. -/
inductive NumberFault where
  | sign
  | empty
  | badDigit
  | tooLarge
  | zero
  | notScalar (code : Nat)
deriving Repr, DecidableEq

/-- Whether the fault lies in the numeral itself, and not in the number it denotes. -/
def NumberFault.isNumeral : NumberFault → Bool
  | .empty | .badDigit | .tooLarge => true
  | .sign | .zero | .notScalar _ => false

/-- The wording of a number's fault. -/
def NumberFault.message : NumberFault → String
  | .sign => "unexpected number sign"
  | .empty => "cannot parse integer from empty string"
  | .badDigit => "invalid digit found in string"
  | .tooLarge => "number too large to fit in target type"
  | .zero => "0x0 character is not permitted in XML"
  | .notScalar code => s!"`{code}` is not a valid codepoint"

/-- Why a reference cannot be decoded. Offsets count bytes from the start of the raw text. -/
inductive ReferenceFault where
  | unterminated (start length : Nat)
  | unknownEntity (start stop : Nat) (name : String)
  | badNumber (cause : NumberFault)
deriving Repr, DecidableEq

/-- The chain of causes of a fault, outermost first. The reader passes on what the decoder
reports in the decoder's own words, so the wording of the fault stands twice; below it follow the
number and, if the numeral is at fault, the numeral. -/
def ReferenceFault.causes : ReferenceFault → List String
  | .unterminated start length =>
    let wording := s!"Error while escaping character at range {start}..{length}: " ++
      "Cannot find ';' after '&'"
    [wording, wording]
  | .unknownEntity start stop name =>
    let wording := s!"at {start}..{stop}: unrecognized entity `{name}`"
    [wording, wording]
  | .badNumber cause =>
    let number := cause.message
    let wording := s!"invalid character reference: {number}"
    [wording, wording, number] ++ if cause.isNumeral then [number] else []

/-- The chain of causes on one line. -/
def ReferenceFault.message (fault : ReferenceFault) : String :=
  ": ".intercalate fault.causes

namespace Reference

/-- The character of a predefined entity. -/
def entity? : List Char → Option Char
  | ['l', 't'] => some '<'
  | ['g', 't'] => some '>'
  | ['a', 'm', 'p'] => some '&'
  | ['a', 'p', 'o', 's'] => some '\''
  | ['q', 'u', 'o', 't'] => some '"'
  | _ => none

/-- The value of a digit in a base of at most sixteen; letters count in either case. -/
def digit? (base : Nat) (c : Char) : Option Nat :=
  let value :=
    if '0' ≤ c ∧ c ≤ '9' then c.toNat - '0'.toNat
    else if 'a' ≤ c ∧ c ≤ 'f' then c.toNat - 'a'.toNat + 10
    else if 'A' ≤ c ∧ c ≤ 'F' then c.toNat - 'A'.toNat + 10
    else base
  if value < base then some value else none

/-- Extends a numeral's value by one digit, within 32 bits. -/
def pushDigit (base value : Nat) (c : Char) : Except NumberFault Nat :=
  match digit? base c with
  | none => .error .badDigit
  | some d => if value * base + d < Nat.pow 2 32 then .ok (value * base + d) else .error .tooLarge

/-- The value of a numeral without sign, read from the left: the first digit that is none or does
not fit decides the fault. -/
def numeral (base : Nat) : List Char → Except NumberFault Nat
  | [] => .error .empty
  | '+' :: _ | '-' :: _ => .error .sign
  | digits => digits.foldlM (pushDigit base) 0

/-- The character with a given number. -/
def scalar (code : Nat) : Except NumberFault Char :=
  if code = 0 then .error .zero
  else if code.isValidChar then .ok (Char.ofNat code)
  else .error (.notScalar code)

/-- The character that the text between `&#` and `;` denotes. -/
def numbered : List Char → Except NumberFault Char
  | 'x' :: digits => numeral 16 digits >>= scalar
  | digits => numeral 10 digits >>= scalar

/-- The character that a reference denotes; `name` stands between `&` and `;`, and its first byte
at `start`. -/
def resolve (start : Nat) (name : List Char) : Except ReferenceFault Char :=
  match name with
  | '#' :: number => (numbered number).mapError .badNumber
  | name =>
    match entity? name with
    | some c => .ok c
    | none => .error (.unknownEntity start (start + byteLength name) (String.ofList name))

/-- Whether a character cannot be part of a reference's name. -/
def isDelimiter (c : Char) : Bool := c = '&' || c = ';'

/-- Decodes the part of a raw text of `length` bytes that starts at byte `offset`. -/
def decodeFrom (length offset : Nat) : List Char → Except ReferenceFault (List Char)
  | [] => .ok []
  | c :: s =>
    if c = '&' then
      let name := s.takeWhile (!isDelimiter ·)
      match h : s.dropWhile (!isDelimiter ·) with
      | ';' :: rest => do
        let named ← resolve (offset + 1) name
        let decoded ← decodeFrom length (offset + 1 + byteLength name + 1) rest
        return named :: decoded
      | _ => .error (.unterminated offset length)
    else do
      let decoded ← decodeFrom length (offset + c.utf8Size) s
      return c :: decoded
termination_by s => s.length
decreasing_by
  · have := (List.dropWhile_suffix (l := s) (!isDelimiter ·)).length_le
    simp only [h, List.length_cons] at this ⊢
    omega
  · simp

/-- The characters that raw text stands for, all references resolved. -/
def decode (raw : List Char) : Except ReferenceFault (List Char) :=
  decodeFrom (byteLength raw) 0 raw

end Reference

end Stencil.Markup
