import Stencil.Proofs.Json.Token

/-!
# The tokens of a text that was written

Both styles of writing put the same tokens into a text and differ in the blanks between these. A
text is scanned piece by piece: what comes after a piece does not matter, unless the piece is a
number, which the next character could continue. Only punctuation and blanks come after a value, so
this never happens.

## Main definitions

* `Json.IsExact`: all numbers in the value are preserved by a text
* `Json.lexicals`: the tokens of a text of the value
* `Json.Scans`: which tokens a piece of a text has

## Main results

* `Json.scans_write`: the tokens of a text that was written
-/

namespace Stencil.Json

open Stencil.Text Token

/-! ### Values -/

/-- All numbers in a value are whole and fit 64 bits. -/
inductive IsExact : Json → Prop where
  | null : IsExact .null
  | bool (value : Bool) : IsExact (.bool value)
  | number {number : Number} (exact : number.IsExact) : IsExact (.number number)
  | string (value : String) : IsExact (.string value)
  | array {items : List Json} (each : ∀ item ∈ items, IsExact item) : IsExact (.array items)
  | object {members : List (String × Json)} (each : ∀ m ∈ members, IsExact m.2) :
    IsExact (.object members)

mutual

/-- The tokens of a text of the value, in any style. -/
def lexicals : Json → List Lexical
  | .null => [.scalar .null]
  | .bool value => [.scalar (.bool value)]
  | .number n => [.scalar (.number n)]
  | .string value => [.string value]
  | .array [] => [.openArray, .closeArray]
  | .array (item :: items) => .openArray :: (lexicals item ++ (itemLexicals items ++ [.closeArray]))
  | .object [] => [.openObject, .closeObject]
  | .object ((key, value) :: members) =>
    .openObject :: .string key :: .colon ::
      (lexicals value ++ (memberLexicals members ++ [.closeObject]))
termination_by structural value => value

/-- The tokens of the items after the first one. -/
def itemLexicals : List Json → List Lexical
  | [] => []
  | item :: items => .comma :: (lexicals item ++ itemLexicals items)
termination_by structural items => items

/-- The tokens of the members after the first one. -/
def memberLexicals : List (String × Json) → List Lexical
  | [] => []
  | (key, value) :: members =>
    .comma :: .string key :: .colon :: (lexicals value ++ memberLexicals members)
termination_by structural members => members

end

/-! ### Scanning what was written -/

/-- Wherever the text starts and whatever of the `follows` comes after it, its tokens are these, and
what comes after it is scanned next. -/
def Scans (follows : List Char → Prop) (s : List Char) (ls : List Lexical) : Prop :=
  ∀ offset rest, follows rest → ∃ tokens stop, tokens.map lexical = ls ∧
    scan offset (s ++ rest) = (tokens ++ (scan stop rest).1, (scan stop rest).2)

/-- Every text may follow. -/
def Anything (_ : List Char) : Prop := True

theorem lineBreak_ends (style : Style) (level : Nat) : Ends (style.lineBreak level) := by
  cases style with
  | compact => exact .nil
  | pretty => exact .cons rfl _

namespace Scans

variable {follows follows' : List Char → Prop} {s t : List Char} {ls ms : List Lexical}
  {l : Lexical} {c : Char}

theorem append_of_follows (first : Scans follows s ls) (second : Scans follows' t ms)
    (meets : ∀ rest, follows' rest → follows (t ++ rest)) : Scans follows' (s ++ t) (ls ++ ms) := by
  intro offset rest may
  obtain ⟨tokens, stop, areFirst, scanned⟩ := first offset (t ++ rest) (meets rest may)
  obtain ⟨others, stop', areSecond, scanned'⟩ := second stop rest may
  refine ⟨tokens ++ others, stop', by rw [List.map_append, areFirst, areSecond], ?_⟩
  rw [List.append_assoc, scanned, scanned', List.append_assoc]

/-- After a text that needs no end, another is scanned as if it stood alone. -/
theorem before (first : Scans Anything s ls) (second : Scans follows t ms) :
    Scans follows (s ++ t) (ls ++ ms) :=
  first.append_of_follows second fun _ _ => trivial

/-- A text that may be a number is scanned first if the next one ends it. -/
theorem append (first : Scans Ends s ls) (ends : Ends t) (second : Scans Ends t ms) :
    Scans Ends (s ++ t) (ls ++ ms) :=
  first.append_of_follows second fun _ => ends.append

/-- What needs no end is scanned with one. -/
theorem weaken (scans : Scans Anything s ls) : Scans follows s ls :=
  fun offset rest _ => scans offset rest trivial

theorem blank (blanks : ∀ c ∈ s, isSpace c = true) : Scans Anything s [] := by
  intro offset rest _
  induction s generalizing offset with
  | nil => exact ⟨[], offset, rfl, rfl⟩
  | cons c s ih =>
    obtain ⟨first, others⟩ := List.forall_mem_cons.mp blanks
    rw [List.cons_append, scan, if_pos first]
    exact ih others (offset + 1)

/-- A token that is the next one wherever the text starts. -/
theorem token (noBlank : isSpace c = false)
    (isNext : ∀ offset rest, follows rest → ∃ stop, next offset c (s ++ rest) = (l, stop, rest)) :
    Scans follows (c :: s) [l] := by
  intro offset rest may
  obtain ⟨stop, isNext⟩ := isNext offset rest may
  refine ⟨[⟨l, offset⟩], stop, rfl, ?_⟩
  rw [List.cons_append, scan, if_neg (by rw [noBlank]; decide), isNext]
  rfl

/-- Punctuation is a token of its own. -/
theorem punctuation (noBlank : isSpace c = false)
    (isNext : ∀ offset rest, next offset c rest = (l, offset + 1, rest)) :
    Scans Anything [c] [l] :=
  token noBlank fun offset rest _ => ⟨offset + 1, isNext offset rest⟩

theorem string (value : String) : Scans Anything (writeString value) [.string value] := by
  refine token (s := value.toList.flatMap escapeChar ++ ['"']) rfl fun offset rest _ => ?_
  obtain ⟨stop, isRead⟩ := readsString_flatMap_escapeChar value.toList rest (offset + 1)
  refine ⟨stop, ?_⟩
  rw [List.append_assoc, List.singleton_append]
  simp only [next, isRead, ofRead, Function.comp_apply, String.ofList_toList]

theorem number {n : Number} (exact : n.IsExact) (layout : Decimal.Layout) :
    Scans Ends (n.text layout).toList [.scalar (.number n)] := by
  obtain ⟨c, s, isText, starts⟩ := Number.exists_cons_text exact layout
  rw [isText]
  refine token (not_isSpace_of_number starts) fun offset rest ended => ?_
  obtain ⟨stop, isRead⟩ := Number.read_text exact layout offset ended
  refine ⟨stop, ?_⟩
  rw [next_of_number starts, ← List.cons_append, ← isText, isRead]
  rfl

theorem lineBreak (style : Style) (level : Nat) : Scans Anything (style.lineBreak level) [] := by
  apply blank
  cases style with
  | compact => exact List.forall_mem_nil _
  | pretty =>
    refine List.forall_mem_cons.mpr ⟨rfl, fun c member => ?_⟩
    rw [List.eq_of_mem_replicate member]
    rfl

theorem keyEnd (style : Style) : Scans Anything style.keyEnd [.colon] := by
  have colon : Scans Anything [':'] [.colon] := punctuation rfl fun _ _ => rfl
  cases style with
  | compact => exact colon
  | pretty => exact colon.before (blank (List.forall_mem_singleton.mpr rfl))

/-- Punctuation and the line break after it. -/
theorem punctuationLine (isPunctuation : Scans Anything [c] [l]) (style : Style) (level : Nat) :
    Scans Anything (c :: style.lineBreak level) [l] :=
  isPunctuation.before (lineBreak style level)

/-- A key and what stands between it and its value. -/
theorem key (isPunctuation : Scans Anything [c] [l]) (style : Style) (level : Nat) (key : String) :
    Scans Anything (c :: style.lineBreak level ++ writeString key ++ style.keyEnd)
      [l, .string key, .colon] :=
  ((isPunctuation.punctuationLine style level).before (string key)).before (keyEnd style)

/-- What closes an array or object on a line of its own. -/
theorem closed (first : Scans Ends s ls) (style : Style) (level : Nat)
    (isPunctuation : Scans Anything [c] [l]) (noNumber : continuesNumber c = false) :
    Scans Ends (s ++ style.lineBreak level ++ [c]) (ls ++ [l]) := by
  have line : Scans Ends (s ++ style.lineBreak level) (ls ++ []) :=
    first.append (lineBreak_ends style level) (lineBreak style level).weaken
  rw [List.append_nil] at line
  exact line.append (.cons noNumber []) isPunctuation.weaken

end Scans

theorem writeItems_ends (style : Style) (level : Nat) (items : List Json) :
    Ends (writeItems style level items) := by
  cases items with
  | nil => exact .nil
  | cons item items => exact .cons rfl _

theorem writeMembers_ends (style : Style) (level : Nat) (members : List (String × Json)) :
    Ends (writeMembers style level members) := by
  cases members with
  | nil => exact .nil
  | cons member members => exact .cons rfl _

mutual

/-- The tokens of a text that was written are those of the value, in either style. -/
theorem scans_write (style : Style) (value : Json) (level : Nat) (exact : value.IsExact) :
    Scans Ends (write style level value) value.lexicals := by
  cases exact with
  | null => exact Scans.token rfl fun _ _ _ => ⟨_, rfl⟩
  | bool value => cases value <;> exact Scans.token rfl fun _ _ _ => ⟨_, rfl⟩
  | number exact => exact Scans.number exact _
  | string value => exact (Scans.string value).weaken
  | @array items each =>
    have opening : Scans Anything ['['] [.openArray] := .punctuation rfl fun _ _ => rfl
    have closing : Scans Anything [']'] [.closeArray] := .punctuation rfl fun _ _ => rfl
    cases items with
    | nil => exact (opening.before closing).weaken
    | cons item items =>
      obtain ⟨first, others⟩ := List.forall_mem_cons.mp each
      -- The first item may be a number: it is ended by the comma before the next item, or by what
      -- comes before the bracket.
      have written := ((opening.punctuationLine style (level + 1)).before
        (scans_write style item (level + 1) first)).append (writeItems_ends style (level + 1) items)
          (scans_writeItems style items (level + 1) others)
      have tokens : lexicals (.array (item :: items)) =
          [.openArray] ++ item.lexicals ++ itemLexicals items ++ [.closeArray] := by
        simp [lexicals]
      rw [write, tokens]
      exact written.closed style level closing rfl
  | @object members each =>
    have opening : Scans Anything ['\x7b'] [.openObject] := .punctuation rfl fun _ _ => rfl
    have closing : Scans Anything ['\x7d'] [.closeObject] := .punctuation rfl fun _ _ => rfl
    cases members with
    | nil => exact (opening.before closing).weaken
    | cons member members =>
      obtain ⟨key, value⟩ := member
      obtain ⟨first, others⟩ := List.forall_mem_cons.mp each
      have written := ((opening.key style (level + 1) key).before
        (scans_write style value (level + 1) first)).append
          (writeMembers_ends style (level + 1) members)
          (scans_writeMembers style members (level + 1) others)
      have tokens : lexicals (.object ((key, value) :: members)) =
          [.openObject, .string key, .colon] ++ value.lexicals ++ memberLexicals members ++
            [.closeObject] := by
        simp [lexicals]
      rw [write, tokens]
      exact written.closed style level closing rfl
termination_by structural value

/-- The tokens of the items after the first one. -/
theorem scans_writeItems (style : Style) (items : List Json) (level : Nat)
    (exact : ∀ item ∈ items, item.IsExact) :
    Scans Ends (writeItems style level items) (itemLexicals items) := by
  cases items with
  | nil => exact (Scans.blank (List.forall_mem_nil _)).weaken
  | cons item items =>
    have comma : Scans Anything [','] [.comma] := .punctuation rfl fun _ _ => rfl
    obtain ⟨first, others⟩ := List.forall_mem_cons.mp exact
    exact ((comma.punctuationLine style level).before (scans_write style item level first)).append
      (writeItems_ends style level items) (scans_writeItems style items level others)
termination_by structural items

/-- The tokens of the members after the first one. -/
theorem scans_writeMembers (style : Style) (members : List (String × Json)) (level : Nat)
    (exact : ∀ m ∈ members, m.2.IsExact) :
    Scans Ends (writeMembers style level members) (memberLexicals members) := by
  cases members with
  | nil => exact (Scans.blank (List.forall_mem_nil _)).weaken
  | cons member members =>
    have comma : Scans Anything [','] [.comma] := .punctuation rfl fun _ _ => rfl
    obtain ⟨key, value⟩ := member
    obtain ⟨first, others⟩ := List.forall_mem_cons.mp exact
    exact ((comma.key style level key).before (scans_write style value level first)).append
      (writeMembers_ends style level members) (scans_writeMembers style members level others)
termination_by structural members

end

end Stencil.Json
