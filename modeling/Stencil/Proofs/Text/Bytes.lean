import Mathlib.Tactic.SplitIfs
import Stencil.Proofs.Text.Line

/-!
# Lines by bytes

The bytes of a text are those of its characters in UTF-8. The byte of a newline stands for a newline
and is part of no other character, so the newlines before an offset may be counted among the bytes,
even where the offset falls within a character.

The line of an offset can be told from any search among the offsets at which lines start. Where the
offset is one of them, it is on the line that starts there; where it is not, a search tells before
which line it would have to be put, and it is on the line before that one.

## Main definitions

* `Text.newlineByte`: the byte of a newline
* `LineIndex.Finding`, `LineIndex.Finding.IsRight`: what a search tells of an offset, and when that
  is right

## Main results

* `Text.count_take_utf8`: newlines are as many among the bytes as among the characters
* `LineIndex.Finding.IsRight.line_eq`: whatever a search tells, the line is that of the offset
* `LineIndex.lineOf_eq_count_bytes`: the line of an offset, exactly
-/

namespace Stencil

namespace Text

/-- The byte of a newline. -/
def newlineByte : UInt8 := 0x0A

theorem newlineByte_eq_ofNat_iff {n : Nat} : newlineByte = UInt8.ofNat n ↔ n % 256 = 10 := by
  rw [eq_comm, ← UInt8.toNat_inj, UInt8.toNat_ofNat']
  rfl

/-- Of all characters, only a newline has the byte of a newline. -/
theorem newlineByte_mem_utf8EncodeChar_iff {c : Char} :
    newlineByte ∈ String.utf8EncodeChar c ↔ c = '\n' := by
  have isNewline : c = '\n' ↔ c.val.toNat = 10 := by
    rw [Char.ext_iff, ← UInt32.toNat_inj]
    rfl
  rw [isNewline]
  simp only [String.utf8EncodeChar]
  generalize c.val.toNat = v
  -- A character below 128 is its own byte; of any other, every byte is 128 or more.
  split_ifs
  all_goals
    simp only [List.mem_cons, List.not_mem_nil, or_false, newlineByte_eq_ofNat_iff]
    omega

theorem count_utf8EncodeChar (c : Char) :
    (String.utf8EncodeChar c).count newlineByte = if c = '\n' then 1 else 0 := by
  by_cases newline : c = '\n'
  · subst newline
    decide
  · rw [if_neg newline, List.count_eq_zero, newlineByte_mem_utf8EncodeChar_iff]
    exact newline

/-- A character of which only a part fits has no newline in that part. -/
theorem count_take_utf8EncodeChar_of_lt {c : Char} {n : Nat} (partly : n < c.utf8Size) :
    ((String.utf8EncodeChar c).take n).count newlineByte = 0 := by
  rw [List.count_eq_zero]
  intro member
  -- A newline takes a single byte, so that no byte of it would be taken.
  obtain rfl := newlineByte_mem_utf8EncodeChar_iff.mp (List.mem_of_mem_take member)
  obtain rfl : n = 0 := Nat.lt_one_iff.mp partly
  simp at member

/-- There are as many newlines among the first bytes of a text as among the characters that fit into
them. -/
theorem count_take_utf8 (n : Nat) (s : List Char) :
    ((s.flatMap String.utf8EncodeChar).take n).count newlineByte = (takeBytes n s).count '\n' := by
  induction s generalizing n with
  | nil => simp [takeBytes]
  | cons c s ih =>
    have size : (String.utf8EncodeChar c).length = c.utf8Size := String.length_utf8EncodeChar c
    rw [List.flatMap_cons, List.take_append, List.count_append, size, takeBytes]
    by_cases fits : c.utf8Size ≤ n
    · rw [List.take_of_length_le (size ▸ fits), count_utf8EncodeChar, ih, if_pos fits,
        List.count_cons, Nat.add_comm]
      simp only [beq_iff_eq]
    · have nothingLeft : n - c.utf8Size = 0 := by omega
      rw [count_take_utf8EncodeChar_of_lt (by omega), nothingLeft, List.take_zero, if_neg fits]
      rfl

/-- The bytes of a text are those of its characters. -/
theorem toList_toUTF8 (text : String) :
    text.toUTF8.data.toList = text.toList.flatMap String.utf8EncodeChar := by
  rw [String.toUTF8_eq_toByteArray, ← String.utf8Encode_toList, List.utf8Encode,
    List.data_toByteArray]

end Text

namespace LineIndex

open Text

/-- What a search among ascending entries may tell of a number. -/
inductive Finding where
  /-- The number is the entry at this place. -/
  | found (place : Nat)
  /-- No entry is the number; it would have to be put at this place. -/
  | missing (place : Nat)
deriving Repr, DecidableEq

namespace Finding

/-- The finding is right about `offset` among `starts`. -/
inductive IsRight (starts : Array Nat) (offset : Nat) : Finding → Prop where
  | found {place : Nat} (inRange : place < starts.size) (here : starts[place] = offset) :
    IsRight starts offset (.found place)
  | missing {place : Nat} (inRange : place ≤ starts.size)
    (before : ∀ (i : Nat) (_ : i < starts.size), i < place → starts[i] < offset)
    (after : ∀ (i : Nat) (_ : i < starts.size), place ≤ i → offset < starts[i]) :
    IsRight starts offset (.missing place)

/-- The line that a finding comes to: one that starts at the offset, or else the one before the
place at which it would start. Lines are counted from one. -/
def line : Finding → Nat
  | found place => place + 1
  | missing place => place

variable {starts : Array Nat} {offset : Nat} {finding : Finding} {index : LineIndex}

/-- The line of a right finding parts the lines that start at most at the offset from the others. -/
theorem IsRight.separates (ascending : starts.toList.Pairwise (· < ·))
    (right : finding.IsRight starts offset) : Separates starts offset finding.line := by
  cases right with
  | @found place inRange here =>
    subst here
    refine ⟨inRange, fun i isIndex lower => ?_, fun i isIndex upper => ?_⟩
    · have weakly : Ascending starts := ascending.imp Nat.le_of_lt
      exact weakly.getElem_le (Nat.le_of_lt_succ lower) inRange
    · exact List.pairwise_iff_getElem.mp ascending place i (by simpa) (by simpa) upper
  | missing inRange before after =>
    exact ⟨inRange, fun i isIndex lower => Nat.le_of_lt (before i isIndex lower), after⟩

/-- Whatever a search tells, if it is right, it comes to the line of the offset. -/
theorem IsRight.line_eq (ascending : index.starts.toList.Pairwise (· < ·))
    (right : finding.IsRight index.starts offset) : finding.line = index.lineOf offset := by
  rw [lineOf_eq_countP (ascending.imp Nat.le_of_lt), (right.separates ascending).countP_eq]

/-- There is something right to be found. -/
theorem exists_isRight (ascending : Ascending starts) (offset : Nat) :
    ∃ finding : Finding, finding.IsRight starts offset := by
  have separates : Separates starts offset (lineOf ⟨starts⟩ offset) :=
    separates_lineOf ascending offset
  by_cases starting : ∃ (i : Nat) (_ : i < starts.size), starts[i] = offset
  · obtain ⟨i, isIndex, here⟩ := starting
    exact ⟨_, .found isIndex here⟩
  · refine ⟨_, .missing separates.inRange (fun i isIndex lower => ?_) separates.after⟩
    exact Nat.lt_of_le_of_ne (separates.before i isIndex lower)
      fun here => starting ⟨i, isIndex, here⟩

end Finding

/-- **The line of an offset is exact.** For every text and every offset, the line is one more than
the number of newlines among the bytes before the offset. It does not matter whether a line starts
at the offset: some finding is right about it among the offsets at which lines start, and any that
is comes to this line. -/
theorem lineOf_eq_count_bytes (text : String) (offset : Nat) :
    (ofText text.toList).lineOf offset =
        1 + (text.toUTF8.data.toList.take offset).count newlineByte ∧
      (∃ finding : Finding, finding.IsRight (ofText text.toList).starts offset) ∧
      ∀ finding : Finding, finding.IsRight (ofText text.toList).starts offset →
        finding.line = 1 + (text.toUTF8.data.toList.take offset).count newlineByte := by
  have exact : (ofText text.toList).lineOf offset =
      1 + (text.toUTF8.data.toList.take offset).count newlineByte := by
    rw [lineOf_ofText, toList_toUTF8, count_take_utf8]
  refine ⟨exact, Finding.exists_isRight (ascending_ofText _) offset, fun finding right => ?_⟩
  rw [right.line_eq (pairwise_lt_starts_ofText _), exact]

end LineIndex

end Stencil
