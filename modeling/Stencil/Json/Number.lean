import Stencil.Json.Fault
import Stencil.Json.Value
import Stencil.Text.Line

/-!
# Reading numbers

A number is a sign, digits without superfluous zeros, perhaps a fraction and perhaps an exponent. A
whole number is kept exactly if it fits 64 bits. For any other number the leading digits are kept
as far as they fit an unsigned 64-bit significand, the rest is dropped (digits of the whole part
count as powers of ten, those of the fraction not at all), and the significand is scaled by the
power of ten with binary64 arithmetic.

## Main definitions

* `Number.read`: the number at the start of a text
* `Number.scale`: a significand times a power of ten
-/

namespace Stencil.Json.Number

open Stencil.Text

/-- The value of a decimal digit. -/
def digitValue (c : Char) : Nat := c.toNat - '0'.toNat

/-- Extends a significand by digits as long as it fits 64 bits; gives it and the number of digits
that were taken. -/
def takeDigits (significand : Nat) : List Char → Nat × Nat
  | [] => (significand, 0)
  | c :: digits =>
    let extended := significand * 10 + digitValue c
    if extended < Nat.pow 2 64 then
      let (significand, count) := takeDigits extended digits
      (significand, count + 1)
    else (significand, 0)

/-- `significand * 10 ^ exponent` in binary64 arithmetic, or `none` if that is out of range. Tables
of powers reach up to `10 ^ 308`; a smaller number is brought into their reach step by step. -/
def scaleFloat (x : Float) (exponent : Int) : Option Float :=
  if exponent.natAbs ≤ 308 then
    let power := Float.ofScientific 1 false exponent.natAbs
    if 0 ≤ exponent then
      let scaled := x * power
      if scaled.isInf then none else some scaled
    else some (x / power)
  else if x == 0.0 then some x
  else if 0 ≤ exponent then none
  else scaleFloat (x / Float.ofScientific 1 false 308) (exponent + 308)
termination_by exponent.natAbs

/-- A significand scaled by a power of ten, with a sign; `read` bytes have been read by then. -/
def scale (negative : Bool) (significand : Nat) (exponent : Int) (read : Nat) :
    Except Fault Number :=
  match scaleFloat significand.toUInt64.toFloat exponent with
  | some x => .ok (.float (if negative then -x else x))
  | none => .error ⟨.numberOutOfRange, read⟩

/-- The value of an exponent's digits; if it does not fit 31 bits, the number of digits up to the
one that made it too great. -/
def exponentValue (value count : Nat) : List Char → Except Nat Nat
  | [] => .ok value
  | c :: digits =>
    let extended := value * 10 + digitValue c
    if extended < Nat.pow 2 31 then exponentValue extended (count + 1) digits
    else .error (count + 1)

/-- Finishes a number whose exponent's digits begin `s` at byte `offset`; `down` tells a negative
exponent. An exponent out of all bounds gives zero, unless it is positive and the significand is
not zero. -/
def readExponentDigits (negative : Bool) (significand : Nat) (exponent : Int) (down : Bool)
    (offset : Nat) (s : List Char) : Except Fault (Number × Nat × List Char) := do
  let digits := s.takeWhile Char.isDigit
  let rest := s.dropWhile Char.isDigit
  let stop := offset + digits.length
  if digits.isEmpty then
    .error (if rest.isEmpty then ⟨.valueCutOff, offset⟩ else ⟨.badNumber, offset + 1⟩)
  else match exponentValue 0 0 digits with
    | .ok value =>
      let number ← scale negative significand
        (exponent + if down then -(value : Int) else value) stop
      return (number, stop, rest)
    | .error count =>
      if significand ≠ 0 ∧ !down then .error ⟨.numberOutOfRange, offset + count⟩
      else return (.float (if negative then -0.0 else 0.0), stop, rest)

/-- Finishes a number whose exponent part, after `e`, begins `s` at byte `offset`. -/
def readExponent (negative : Bool) (significand : Nat) (exponent : Int) (offset : Nat) :
    List Char → Except Fault (Number × Nat × List Char)
  | '+' :: s => readExponentDigits negative significand exponent false (offset + 1) s
  | '-' :: s => readExponentDigits negative significand exponent true (offset + 1) s
  | s => readExponentDigits negative significand exponent false offset s

/-- Finishes a number whose fraction, after the point, begins `s` at byte `offset`. -/
def readFraction (negative : Bool) (significand : Nat) (exponent : Int) (offset : Nat)
    (s : List Char) : Except Fault (Number × Nat × List Char) := do
  let digits := s.takeWhile Char.isDigit
  let stop := offset + digits.length
  if digits.isEmpty then
    .error (if s.isEmpty then ⟨.valueCutOff, offset⟩ else ⟨.badNumber, offset + 1⟩)
  else
    let (significand, count) := takeDigits significand digits
    let exponent := exponent - count
    match s.dropWhile Char.isDigit with
    | 'e' :: rest | 'E' :: rest => readExponent negative significand exponent (stop + 1) rest
    | rest =>
      let number ← scale negative significand exponent stop
      return (number, stop, rest)

/-- A whole number: exact if it fits, negative zero a float. -/
def whole (negative : Bool) (significand : Nat) : Number :=
  if negative then
    if 0 < significand ∧ significand ≤ Nat.pow 2 63 then .integer (-(significand : Int))
    else .float (-significand.toUInt64.toFloat)
  else .integer significand

/-- Reads the digits of a number and all that follows them; `s` starts at byte `offset`. Gives the
number, the offset of what comes after it, and that. -/
def readDigits (negative : Bool) (offset : Nat) (s : List Char) :
    Except Fault (Number × Nat × List Char) := do
  let digits := s.takeWhile Char.isDigit
  let rest := s.dropWhile Char.isDigit
  let stop := offset + digits.length
  if digits.isEmpty then
    .error (if s.isEmpty then ⟨.valueCutOff, offset⟩ else ⟨.badNumber, offset + 1⟩)
  else if digits.head? = some '0' ∧ digits.length ≠ 1 then .error ⟨.badNumber, offset + 2⟩
  else
    let (significand, count) := takeDigits 0 digits
    let dropped := digits.length - count
    match rest with
    | '.' :: rest => readFraction negative significand dropped (stop + 1) rest
    | 'e' :: rest | 'E' :: rest => readExponent negative significand dropped (stop + 1) rest
    | rest =>
      if dropped = 0 then return (whole negative significand, stop, rest)
      else
        let number ← scale negative significand dropped stop
        return (number, stop, rest)

/-- Reads the number at the start of `s`, which stands at byte `offset`. -/
def read (offset : Nat) : List Char → Except Fault (Number × Nat × List Char)
  | '-' :: s => readDigits true (offset + 1) s
  | s => readDigits false offset s

/-! ### What follows a number is shorter than what begins with it -/

theorem length_dropWhile_le (p : Char → Bool) (s : List Char) :
    (s.dropWhile p).length ≤ s.length :=
  (List.dropWhile_suffix (l := s) p).length_le

theorem length_dropWhile_add (p : Char → Bool) (s : List Char) :
    (s.takeWhile p).length + (s.dropWhile p).length = s.length := by
  rw [← List.length_append, List.takeWhile_append_dropWhile]

theorem length_le_of_readExponentDigits {negative down : Bool} {significand : Nat}
    {exponent : Int} {offset stop : Nat} {s rest : List Char} {number : Number}
    (h : readExponentDigits negative significand exponent down offset s =
      .ok (number, stop, rest)) : rest.length ≤ s.length := by
  have bound := length_dropWhile_le Char.isDigit s
  unfold readExponentDigits at h
  simp only [bind, Except.bind, pure, Except.pure] at h
  repeat' split at h
  all_goals first
    | (simp only [Except.ok.injEq, Prod.mk.injEq] at h; obtain ⟨-, -, rfl⟩ := h; exact bound)
    | simp at h

theorem length_le_of_readExponent {negative : Bool} {significand : Nat} {exponent : Int}
    {offset stop : Nat} {s rest : List Char} {number : Number}
    (h : readExponent negative significand exponent offset s = .ok (number, stop, rest)) :
    rest.length ≤ s.length := by
  unfold readExponent at h
  split at h
  · exact Nat.le_succ_of_le (length_le_of_readExponentDigits h)
  · exact Nat.le_succ_of_le (length_le_of_readExponentDigits h)
  · exact length_le_of_readExponentDigits h

theorem length_le_of_readFraction {negative : Bool} {significand : Nat} {exponent : Int}
    {offset stop : Nat} {s rest : List Char} {number : Number}
    (h : readFraction negative significand exponent offset s = .ok (number, stop, rest)) :
    rest.length ≤ s.length := by
  have bound := length_dropWhile_le Char.isDigit s
  unfold readFraction at h
  simp only [bind, Except.bind, pure, Except.pure] at h
  split at h
  · simp at h
  · split at h
    · rename_i found
      have := length_le_of_readExponent h
      rw [found, List.length_cons] at bound
      omega
    · rename_i found
      have := length_le_of_readExponent h
      rw [found, List.length_cons] at bound
      omega
    · split at h
      · simp at h
      · simp only [Except.ok.injEq, Prod.mk.injEq] at h
        obtain ⟨-, -, rfl⟩ := h
        exact bound

theorem length_lt_of_readDigits {negative : Bool} {offset stop : Nat} {s rest : List Char}
    {number : Number} (h : readDigits negative offset s = .ok (number, stop, rest)) :
    rest.length < s.length := by
  have total := length_dropWhile_add Char.isDigit s
  unfold readDigits at h
  simp only [bind, Except.bind, pure, Except.pure] at h
  split at h
  · simp at h
  · rename_i nonempty
    have positive : 0 < (s.takeWhile Char.isDigit).length := by
      rw [List.length_pos_iff]
      simpa using nonempty
    split at h
    · simp at h
    · split at h
      · rename_i found
        have := length_le_of_readFraction h
        rw [found, List.length_cons] at total
        omega
      · rename_i found
        have := length_le_of_readExponent h
        rw [found, List.length_cons] at total
        omega
      · rename_i found
        have := length_le_of_readExponent h
        rw [found, List.length_cons] at total
        omega
      · split at h
        · simp only [Except.ok.injEq, Prod.mk.injEq] at h
          obtain ⟨-, -, rfl⟩ := h
          omega
        · split at h
          · simp at h
          · simp only [Except.ok.injEq, Prod.mk.injEq] at h
            obtain ⟨-, -, rfl⟩ := h
            omega

theorem length_lt_of_read {offset stop : Nat} {s rest : List Char} {number : Number}
    (h : read offset s = .ok (number, stop, rest)) : rest.length < s.length := by
  unfold read at h
  split at h
  · have := length_lt_of_readDigits h
    rw [List.length_cons]
    omega
  · exact length_lt_of_readDigits h

end Stencil.Json.Number
