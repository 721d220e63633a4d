/-!
# Lines of a text

Documents are addressed in two ways: a reader counts bytes of the UTF-8 form, and people count
lines. A `LineIndex` holds the byte offset at which every line starts, in ascending order, and
finds the line of an offset by halving the range of candidates.

## Main definitions

* `Text.byteLength`: the number of bytes of a run of characters
* `LineIndex.ofText`: the index of a text
* `LineIndex.lineOf`: the 1-based line of a byte offset
-/

namespace Stencil

namespace Text

/-- The number of bytes that a run of characters takes in UTF-8. -/
def byteLength : List Char → Nat
  | [] => 0
  | c :: s => c.utf8Size + byteLength s

@[simp] theorem byteLength_nil : byteLength [] = 0 := rfl

@[simp] theorem byteLength_cons (c : Char) (s : List Char) :
    byteLength (c :: s) = c.utf8Size + byteLength s := rfl

@[simp] theorem byteLength_append (s t : List Char) :
    byteLength (s ++ t) = byteLength s + byteLength t := by
  induction s with
  | nil => simp
  | cons c s ih => simp [ih, Nat.add_assoc]

end Text

/-- The byte offsets at which the lines of a text start, ascending; line `i + 1` starts at entry
`i`. -/
structure LineIndex where
  starts : Array Nat
deriving Repr

namespace LineIndex

/-- The offsets just after the newlines of a text whose first byte stands at `offset`. -/
def startsAfter (offset : Nat) : List Char → List Nat
  | [] => []
  | c :: s =>
    let next := offset + c.utf8Size
    if c = '\n' then next :: startsAfter next s else startsAfter next s

/-- The index of a text: a line starts at the beginning and after every newline. -/
def ofText (text : List Char) : LineIndex where
  starts := (0 :: startsAfter 0 text).toArray

/-- The number of entries that are at most `offset`, if it lies between `lo` and `hi`. -/
def countUpTo (starts : Array Nat) (offset lo hi : Nat) (inRange : hi ≤ starts.size) : Nat :=
  if _ : lo < hi then
    let mid := (lo + hi) / 2
    if starts[mid] ≤ offset then countUpTo starts offset (mid + 1) hi inRange
    else countUpTo starts offset lo mid (by omega)
  else lo
termination_by hi - lo

/-- The 1-based line on which the byte at `offset` stands. A newline belongs to the line it
ends. -/
def lineOf (index : LineIndex) (offset : Nat) : Nat :=
  countUpTo index.starts offset 0 index.starts.size (Nat.le_refl _)

end LineIndex

end Stencil
