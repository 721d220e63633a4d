import Stencil.Text.Blank
import Stencil.Text.Line

/-!
# Attributes of a tag

After its name a tag holds attributes: a key, `=`, and a value in either kind of quotes, with
blanks around any of them. The next key may follow a closing quote at once. A key is any run of
characters up to `=` or a blank; its first character is not looked at.

Positions in a fault count bytes from the first byte of the tag's name. A run of attributes always
ends where its tag ends, so the position of a suffix is the tag's length less the suffix's.

## Main definitions

* `AttributeFault`: what is wrong with an attribute
* `Attribute.next?`: the first attribute of a run, and what follows it
-/

namespace Stencil.Markup

open Stencil.Text

/-- What is wrong with an attribute. -/
inductive AttributeFault where
  | noEquals (position : Nat)
  | duplicate (position previous : Nat)
  | noValue (position : Nat)
  | unquoted (position : Nat)
  | noClosingQuote (position : Nat) (quote : Char)
deriving Repr, DecidableEq

/-- The wording of an attribute's fault. -/
def AttributeFault.message : AttributeFault → String
  | .noEquals position =>
    s!"position {position}: attribute key must be directly followed by `=` or space"
  | .duplicate position previous =>
    s!"position {position}: duplicated attribute, previous declaration at position {previous}"
  | .noValue position => s!"position {position}: `=` must be followed by an attribute value"
  | .unquoted position =>
    s!"position {position}: attribute value must be enclosed in `\"` or `'`"
  | .noClosingQuote position quote =>
    s!"position {position}: missing closing quote `{quote}` in attribute value"

/-- An attribute as written: its key, the byte at which the key starts, and the text between the
quotes, references not yet resolved. -/
structure Attribute where
  key : List Char
  position : Nat
  raw : List Char
deriving Repr, DecidableEq

namespace Attribute

/-- Whether a character ends a key that it does not begin. -/
def endsKey (c : Char) : Bool := c = '=' || isSpace c

/-- What follows the `=` after a key, in a tag of `length` bytes. -/
def afterEquals (length : Nat) (s : List Char) : Except AttributeFault (List Char) :=
  match s.dropWhile isSpace with
  | [] => .error (.noEquals length)
  | c :: rest =>
    if c = '=' then .ok rest else .error (.noEquals (length - byteLength (c :: rest)))

/-- The text of a quoted value and what follows it, in a tag of `length` bytes. -/
def quoted (length : Nat) (s : List Char) : Except AttributeFault (List Char × List Char) :=
  match s.dropWhile isSpace with
  | [] => .error (.noValue length)
  | quote :: value =>
    if quote = '"' ∨ quote = '\'' then
      match value.dropWhile (· ≠ quote) with
      | [] => .error (.noClosingQuote length quote)
      | _ :: rest => .ok (value.takeWhile (· ≠ quote), rest)
    else .error (.unquoted (length - byteLength (quote :: value)))

/-- The first attribute in a suffix of a tag of `length` bytes, and what follows it; `none` if
the suffix is blank. A key must not be among the `earlier` ones. -/
def next? (length : Nat) (earlier : List Attribute) (s : List Char) :
    Except AttributeFault (Option (Attribute × List Char)) :=
  match s.dropWhile isSpace with
  | [] => .ok none
  | c :: afterFirst => do
    let position := length - byteLength (c :: afterFirst)
    let key := c :: afterFirst.takeWhile (!endsKey ·)
    let rest ← afterEquals length (afterFirst.dropWhile (!endsKey ·))
    match earlier.find? (·.key = key) with
    | some previous => .error (.duplicate position previous.position)
    | none =>
      let (raw, rest) ← quoted length rest
      return some (⟨key, position, raw⟩, rest)

theorem length_dropWhile_le (p : Char → Bool) (s : List Char) :
    (s.dropWhile p).length ≤ s.length :=
  (List.dropWhile_suffix (l := s) p).length_le

theorem length_lt_of_afterEquals {length : Nat} {s rest : List Char}
    (h : afterEquals length s = .ok rest) : rest.length < s.length := by
  unfold afterEquals at h
  have bound := length_dropWhile_le isSpace s
  split at h
  · simp at h
  · rename_i found
    split at h
    · cases h
      rw [found, List.length_cons] at bound
      omega
    · simp at h

theorem length_lt_of_quoted {length : Nat} {s raw rest : List Char}
    (h : quoted length s = .ok (raw, rest)) : rest.length < s.length := by
  unfold quoted at h
  have bound := length_dropWhile_le isSpace s
  split at h
  · simp at h
  · rename_i quote value found
    split at h
    · have bound' := length_dropWhile_le (· ≠ quote) value
      split at h
      · simp at h
      · rename_i found'
        cases h
        rw [found, List.length_cons] at bound
        rw [found', List.length_cons] at bound'
        omega
    · simp at h

/-- What follows an attribute is shorter than what began with it. -/
theorem length_lt_of_next? {length : Nat} {earlier : List Attribute} {s rest : List Char}
    {first : Attribute} (h : next? length earlier s = .ok (some (first, rest))) :
    rest.length < s.length := by
  unfold next? at h
  have bound := length_dropWhile_le isSpace s
  split at h
  · simp at h
  · rename_i c afterFirst found
    have bound' := length_dropWhile_le (!endsKey ·) afterFirst
    simp only [bind, Except.bind] at h
    split at h
    · simp at h
    · rename_i equals
      have := length_lt_of_afterEquals equals
      split at h
      · simp at h
      · split at h
        · simp at h
        · rename_i value
          have := length_lt_of_quoted value
          simp only [pure, Except.pure, Except.ok.injEq, Option.some.injEq, Prod.mk.injEq] at h
          rw [found, List.length_cons] at bound
          rw [h.2] at this
          omega

end Attribute

end Stencil.Markup
