import Stencil.Text.Line

/-!
# What a line index finds

The entries of a line index ascend, so halving finds how many of them are at most a given offset.
All but the first of those stand for newlines that end before the offset: the line of an offset is
one more than the number of newlines in the bytes before it. An offset may fall within a character,
which then is not among those before it.

## Main definitions

* `Text.takeBytes`: the characters that fit into a number of bytes
* `LineIndex.Separates`: a place before which, and only before which, entries are at most an offset

## Main results

* `LineIndex.separates_countUpTo`: halving finds the place that separates
* `LineIndex.lineOf_ofText`: the line of an offset counts the newlines before it
-/

namespace Stencil

namespace Text

/-- The longest beginning of a text that takes at most `n` bytes. -/
def takeBytes (n : Nat) : List Char → List Char
  | [] => []
  | c :: s => if c.utf8Size ≤ n then c :: takeBytes (n - c.utf8Size) s else []

variable {n : Nat} {s t : List Char}

theorem takeBytes_of_byteLength_le (fits : byteLength s ≤ n) : takeBytes n s = s := by
  induction s generalizing n with
  | nil => rfl
  | cons c s ih =>
    rw [byteLength_cons] at fits
    rw [takeBytes, if_pos (by omega), ih (by omega)]

theorem isPrefix_takeBytes (n : Nat) (s : List Char) : takeBytes n s <+: s := by
  induction s generalizing n with
  | nil => exact List.prefix_rfl
  | cons c s ih =>
    rw [takeBytes]
    split
    · exact (List.prefix_cons_inj c).mpr (ih _)
    · exact List.nil_prefix

/-- What comes after the bytes that are taken does not matter. -/
theorem takeBytes_append (within : n ≤ byteLength s) (t : List Char) :
    takeBytes n (s ++ t) = takeBytes n s := by
  induction s generalizing n with
  | nil =>
    -- Nothing is taken, for every character takes a byte.
    obtain rfl : n = 0 := by simpa using within
    cases t with
    | nil => rfl
    | cons c t =>
      have positive := c.utf8Size_pos
      simp [takeBytes]
      omega
  | cons c s ih =>
    rw [byteLength_cons] at within
    rw [List.cons_append, takeBytes, takeBytes]
    by_cases fits : c.utf8Size ≤ n
    · rw [if_pos fits, if_pos fits, ih (by omega)]
    · rw [if_neg fits, if_neg fits]

end Text

namespace LineIndex

open Text

/-! ### Halving -/

variable {starts : Array Nat} {offset place lo hi : Nat}

/-- No entry is less than one before it. -/
def Ascending (starts : Array Nat) : Prop := starts.toList.Pairwise (· ≤ ·)

theorem Ascending.getElem_le {i j : Nat} (ascending : Ascending starts) (le : i ≤ j)
    (inRange : j < starts.size) : starts[i] ≤ starts[j] := by
  rcases Nat.eq_or_lt_of_le le with rfl | lt
  · exact Nat.le_refl _
  · have inList : j < starts.toList.length := by simpa using inRange
    exact List.pairwise_iff_getElem.mp ascending i j (Nat.lt_trans lt inList) inList lt

/-- The entries before `place` are at most `offset`, and the others are greater. -/
structure Separates (starts : Array Nat) (offset place : Nat) : Prop where
  inRange : place ≤ starts.size
  before : ∀ (i : Nat) (_ : i < starts.size), i < place → starts[i] ≤ offset
  after : ∀ (i : Nat) (_ : i < starts.size), place ≤ i → offset < starts[i]

/-- Halving finds the place that separates: what is known of the entries outside the range is kept
while the range shrinks, until there is nothing between its ends. -/
theorem separates_countUpTo (ascending : Ascending starts) (inRange : hi ≤ starts.size)
    (ordered : lo ≤ hi) (before : ∀ (i : Nat) (_ : i < starts.size), i < lo → starts[i] ≤ offset)
    (after : ∀ (i : Nat) (_ : i < starts.size), hi ≤ i → offset < starts[i]) :
    Separates starts offset (countUpTo starts offset lo hi inRange) := by
  fun_induction countUpTo starts offset lo hi inRange with
  | case1 lo hi inRange nonempty mid atMost ih =>
    -- The starts ascend, so those before the middle are at most the offset as well.
    refine ih (by omega) (fun i isIndex lower => ?_) after
    exact Nat.le_trans (ascending.getElem_le (Nat.le_of_lt_succ lower) (by omega)) atMost
  | case2 lo hi inRange nonempty mid greater ih =>
    refine ih (by omega) before fun i isIndex upper => ?_
    exact Nat.lt_of_lt_of_le (Nat.lt_of_not_le greater) (ascending.getElem_le upper isIndex)
  | case3 lo hi inRange empty =>
    obtain rfl : lo = hi := by omega
    exact ⟨inRange, before, after⟩

/-- As many entries are at most the offset as stand before the place that separates. -/
theorem Separates.countP_eq (separates : Separates starts offset place) :
    starts.toList.countP (· ≤ offset) = place := by
  have isLength : (starts.toList.take place).length = place :=
    List.length_take_of_le separates.inRange
  have first : (starts.toList.take place).countP (· ≤ offset) = place := by
    rw [List.countP_eq_length.mpr, isLength]
    intro entry member
    obtain ⟨i, isIndex, rfl⟩ := List.mem_take_iff_getElem.mp member
    obtain ⟨lower, inList⟩ := Nat.lt_min.mp isIndex
    exact decide_eq_true (separates.before i inList lower)
  have others : (starts.toList.drop place).countP (· ≤ offset) = 0 := by
    rw [List.countP_eq_zero]
    intro entry member
    obtain ⟨i, isIndex, rfl⟩ := List.mem_drop_iff_getElem.mp member
    have greater := separates.after (place + i) (Nat.add_comm i place ▸ isIndex) (by omega)
    simpa using greater
  calc starts.toList.countP (· ≤ offset)
      = (starts.toList.take place).countP (· ≤ offset) +
          (starts.toList.drop place).countP (· ≤ offset) := by
        rw [← List.countP_append, List.take_append_drop]
    _ = place := by rw [first, others, Nat.add_zero]

theorem separates_lineOf {index : LineIndex} (ascending : Ascending index.starts) (offset : Nat) :
    Separates index.starts offset (index.lineOf offset) :=
  separates_countUpTo ascending (Nat.le_refl _) (Nat.zero_le _)
    (fun i _ lower => absurd lower (Nat.not_lt_zero i))
    (fun _ isIndex upper => absurd isIndex (Nat.not_lt.mpr upper))

/-- The line of an offset is the number of lines that start at or before it. -/
theorem lineOf_eq_countP {index : LineIndex} (ascending : Ascending index.starts) (offset : Nat) :
    index.lineOf offset = index.starts.toList.countP (· ≤ offset) :=
  (separates_lineOf ascending offset).countP_eq.symm

/-- A later offset stands on the same line or on a later one. -/
theorem Ascending.lineOf_le {index : LineIndex} {offset later : Nat}
    (ascending : Ascending index.starts) (le : offset ≤ later) :
    index.lineOf offset ≤ index.lineOf later := by
  rw [lineOf_eq_countP ascending, lineOf_eq_countP ascending]
  refine List.countP_mono_left fun entry _ atMost => ?_
  exact decide_eq_true (Nat.le_trans (of_decide_eq_true atMost) le)

/-! ### Newlines -/

theorem lt_of_mem_startsAfter {start entry : Nat} {text : List Char}
    (member : entry ∈ startsAfter start text) : start < entry := by
  induction text generalizing start with
  | nil => simp [startsAfter] at member
  | cons c text ih =>
    have positive := c.utf8Size_pos
    simp only [startsAfter] at member
    split at member
    · rcases List.mem_cons.mp member with rfl | later
      · omega
      · have := ih later
        omega
    · have := ih member
      omega

theorem pairwise_lt_startsAfter (start : Nat) (text : List Char) :
    (startsAfter start text).Pairwise (· < ·) := by
  induction text generalizing start with
  | nil => exact .nil
  | cons c text ih =>
    simp only [startsAfter]
    split
    · exact .cons (fun entry later => lt_of_mem_startsAfter later) (ih _)
    · exact ih _

/-- No two lines of a text start at the same offset. -/
theorem pairwise_lt_starts_ofText (text : List Char) :
    (ofText text).starts.toList.Pairwise (· < ·) :=
  .cons (fun _ later => lt_of_mem_startsAfter later) (pairwise_lt_startsAfter 0 text)

theorem ascending_ofText (text : List Char) : Ascending (ofText text).starts :=
  (pairwise_lt_starts_ofText text).imp Nat.le_of_lt

/-- Lines that start after `start` and not after an offset are those of the newlines in between. -/
theorem countP_startsAfter (start offset : Nat) (text : List Char) :
    (startsAfter start text).countP (· ≤ offset) =
      (takeBytes (offset - start) text).count '\n' := by
  induction text generalizing start with
  | nil => rfl
  | cons c text ih =>
    have positive := c.utf8Size_pos
    rw [startsAfter, takeBytes]
    by_cases fits : c.utf8Size ≤ offset - start
    · have isRest : offset - start - c.utf8Size = offset - (start + c.utf8Size) := by omega
      have atMost : start + c.utf8Size ≤ offset := by omega
      rw [if_pos fits, isRest, List.count_cons, ← ih]
      by_cases newline : c = '\n'
      · simp only [newline] at atMost ⊢
        simp [atMost]
      · simp [newline]
    · -- The character ends after the offset, and so does everything after it.
      have later : ∀ entry ∈ startsAfter start (c :: text), ¬ entry ≤ offset := by
        intro entry member
        simp only [startsAfter] at member
        split at member
        · rcases List.mem_cons.mp member with rfl | member
          · omega
          · have := lt_of_mem_startsAfter member
            omega
        · have := lt_of_mem_startsAfter member
          omega
      rw [if_neg fits, ← startsAfter, List.countP_eq_zero.mpr (by simpa using later)]
      rfl

/-- **Lines count newlines.** The line of an offset is one more than the number of newlines in the
bytes before it. -/
theorem lineOf_ofText (text : List Char) (offset : Nat) :
    (ofText text).lineOf offset = 1 + (takeBytes offset text).count '\n' := by
  have first : (ofText text).starts.toList = 0 :: startsAfter 0 text := rfl
  rw [lineOf_eq_countP (ascending_ofText text), first, List.countP_cons, countP_startsAfter]
  simp [Nat.add_comm]

example : (ofText ['a', '\n', 'ü', '\n', '<']).lineOf 5 = 3 := by
  rw [lineOf_ofText]
  decide

/-- A text has one line more than it has newlines. -/
theorem lineOf_ofText_bounds (text : List Char) (offset : Nat) :
    1 ≤ (ofText text).lineOf offset ∧ (ofText text).lineOf offset ≤ 1 + text.count '\n' := by
  have among := (isPrefix_takeBytes offset text).sublist.count_le '\n'
  rw [lineOf_ofText]
  omega

end LineIndex

end Stencil
