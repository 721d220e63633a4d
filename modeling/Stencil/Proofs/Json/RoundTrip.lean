import Stencil.Json.Reader
import Stencil.Proofs.Except
import Stencil.Proofs.Json.Lexicals

/-!
# What is written is read

From the tokens of a text that was written the value is read again, in whatever place of an array or
object it stands, as long as arrays and objects do not nest too deep. The members of an object are
read in the order of their keys, and the last of those with the same key counts; numbers have to be
whole and to fit 64 bits.

## Main definitions

* `Json.depth`: how deep arrays and objects nest
* `Json.ordered`: the value with the members of its objects in the order of their keys
* `Reading.Takes`: how reading goes on over some tokens

## Main results

* `Reading.takes_lexicals`: the value that is read from the tokens of a value
* `Json.parse_render`: what is written is read
-/

namespace Stencil.Json

open Stencil.Text Token

/-! ### Values -/

mutual

/-- How deep arrays and objects nest in a value. -/
def depth : Json → Nat
  | .array items => depthAll items + 1
  | .object members => depthMembers members + 1
  | .null | .bool _ | .number _ | .string _ => 0
termination_by structural value => value

/-- How deep arrays and objects nest in the deepest item. -/
def depthAll : List Json → Nat
  | [] => 0
  | item :: items => max (depth item) (depthAll items)
termination_by structural items => items

/-- How deep arrays and objects nest in the deepest member. -/
def depthMembers : List (String × Json) → Nat
  | [] => 0
  | (_, value) :: members => max (depth value) (depthMembers members)
termination_by structural members => members

end

mutual

/-- The value with the members of every object in the order of their keys; of those with the same
key only the last one is kept. -/
def ordered : Json → Json
  | .array items => .array (orderedAll items)
  | .object members => ofMembers (orderedMembers members)
  | .null => .null
  | .bool value => .bool value
  | .number n => .number n
  | .string value => .string value
termination_by structural value => value

/-- Items with the members of every object in order. -/
def orderedAll : List Json → List Json
  | [] => []
  | item :: items => ordered item :: orderedAll items
termination_by structural items => items

/-- Members with the members of every object in their values in order. -/
def orderedMembers : List (String × Json) → List (String × Json)
  | [] => []
  | (key, value) :: members => (key, ordered value) :: orderedMembers members
termination_by structural members => members

end

/-! ### Reading tokens -/

namespace Reading

variable {r r' r'' : Reading} {l : Lexical} {ls ms : List Lexical}

/-- Reading goes on from `r` to `r'` over tokens that are these, wherever they start. -/
def Takes (r : Reading) (ls : List Lexical) (r' : Reading) : Prop :=
  ∀ tokens : List Token, tokens.map lexical = ls → tokens.foldlM feed r = .ok r'

namespace Takes

theorem nil : Takes r [] r := by
  intro tokens none
  rw [List.map_eq_nil_iff.mp none]
  rfl

theorem append (first : Takes r ls r') (second : Takes r' ms r'') : Takes r (ls ++ ms) r'' := by
  intro tokens areAll
  obtain ⟨before, after, rfl, areFirst, areSecond⟩ := List.map_eq_append_iff.mp areAll
  rw [List.foldlM_append, first before areFirst]
  exact second after areSecond

theorem single (taken : ∀ start, r.feed ⟨l, start⟩ = .ok r') : Takes r [l] r' := by
  intro tokens isOne
  obtain ⟨⟨_, start⟩, rfl, rfl⟩ := List.map_eq_singleton_iff.mp isOne
  rw [List.foldlM_cons, taken start]
  rfl

theorem cons (taken : ∀ start, r.feed ⟨l, start⟩ = .ok r') (others : Takes r' ls r'') :
    Takes r (l :: ls) r'' :=
  (single taken).append others

end Takes

/-- A value may come next. -/
def AwaitsValue (r : Reading) : Prop :=
  r.awaited = .value ∨ r.awaited = .firstItem ∨ r.awaited = .laterItem

theorem feed_of_awaitsValue (awaits : r.AwaitsValue) (opens : l ≠ .closeArray) (start : Nat) :
    r.feed ⟨l, start⟩ = r.feedValue ⟨l, start⟩ := by
  rcases awaits with value | first | later
  · simp [feed, value]
  · simp [feed, first]
  · simp [feed, later]

/-- What was awaited before a value does not matter after it. -/
theorem complete_awaiting (opened : List Container) (awaited awaited' : Awaited)
    (root value : Json) :
    complete ⟨opened, awaited, root⟩ value = complete ⟨opened, awaited', root⟩ value := by
  cases opened with
  | nil => rfl
  | cons container outer => cases container <;> rfl

theorem takes_single (awaits : r.AwaitsValue) {value : Json} (opens : l ≠ .closeArray)
    (taken : ∀ start, r.feedValue ⟨l, start⟩ = .ok (r.complete value)) :
    Takes r [l] (r.complete value) :=
  .single fun start => (feed_of_awaitsValue awaits opens start).trans (taken start)

/-- An array or object is opened where a value may come, unless too many are open. -/
theorem feed_of_opens {opened : List Container} {awaited next : Awaited} {root : Json}
    {container : Container} (awaits : AwaitsValue ⟨opened, awaited, root⟩)
    (shallow : opened.length < maxDepth) (opens : l ≠ .closeArray) (start : Nat)
    (isOpened : feedValue ⟨opened, awaited, root⟩ ⟨l, start⟩ =
      openContainer ⟨opened, awaited, root⟩ ⟨l, start⟩ container next) :
    feed ⟨opened, awaited, root⟩ ⟨l, start⟩ = .ok ⟨container :: opened, next, root⟩ := by
  rw [feed_of_awaitsValue awaits opens, isOpened]
  exact if_pos shallow

mutual

/-- From the tokens of a value it is read, with the members of objects in order. -/
theorem takes_lexicals (value : Json) {opened : List Container} {awaited : Awaited} {root : Json}
    (awaits : AwaitsValue ⟨opened, awaited, root⟩)
    (shallow : opened.length + value.depth ≤ maxDepth) :
    Takes ⟨opened, awaited, root⟩ value.lexicals
      (complete ⟨opened, awaited, root⟩ value.ordered) := by
  cases value with
  | null | bool value | number n | string value =>
    exact takes_single awaits (by nofun) fun start => rfl
  | array items =>
    rw [depth] at shallow
    have opens (start : Nat) : feed ⟨opened, awaited, root⟩ ⟨.openArray, start⟩ =
        .ok ⟨.array [] :: opened, .firstItem, root⟩ :=
      feed_of_opens awaits (by omega) (by nofun) start rfl
    cases items with
    | nil =>
      rw [complete_awaiting opened awaited .firstItem]
      exact .cons opens (.single fun start => rfl)
    | cons item items =>
      rw [depthAll] at shallow
      rw [complete_awaiting opened awaited .separator]
      -- One container more is open around the items, and they nest one level less deep.
      refine .cons opens (.append (takes_lexicals item (.inr (.inl rfl)) ?_) (takes_items items ?_))
      · rw [List.length_cons]
        omega
      · omega
  | object members =>
    rw [depth] at shallow
    have opens (start : Nat) : feed ⟨opened, awaited, root⟩ ⟨.openObject, start⟩ =
        .ok ⟨.object [] "" :: opened, .firstKey, root⟩ :=
      feed_of_opens awaits (by omega) (by nofun) start rfl
    cases members with
    | nil =>
      rw [complete_awaiting opened awaited .firstKey]
      exact .cons opens (.single fun start => rfl)
    | cons member members =>
      obtain ⟨key, value⟩ := member
      rw [depthMembers] at shallow
      rw [complete_awaiting opened awaited .separator]
      refine .cons opens (.cons (fun start => rfl) (.cons (fun start => rfl) ?_))
      refine .append (takes_lexicals value (.inl rfl) ?_) (takes_members members ?_)
      · rw [List.length_cons]
        omega
      · omega
termination_by structural value

/-- After an item, from the tokens of the others and the end of the array the array is read. -/
theorem takes_items (items : List Json) {outer : List Container} {reversed : List Json}
    {root : Json} (shallow : outer.length + 1 + depthAll items ≤ maxDepth) :
    Takes ⟨.array reversed :: outer, .separator, root⟩ (itemLexicals items ++ [.closeArray])
      (complete ⟨outer, .separator, root⟩ (.array (reversed.reverse ++ orderedAll items))) := by
  cases items with
  | nil =>
    refine .single fun start => ?_
    rw [orderedAll, List.append_nil]
    rfl
  | cons item items =>
    rw [depthAll] at shallow
    -- The item joins those that were read, and the reading is as after it.
    have isArray : reversed.reverse ++ orderedAll (item :: items) =
        (item.ordered :: reversed).reverse ++ orderedAll items := by
      simp [orderedAll]
    rw [itemLexicals, List.cons_append, List.append_assoc, isArray]
    refine .cons (fun start => rfl) (.append (takes_lexicals item (.inr (.inr rfl)) ?_) ?_)
    · rw [List.length_cons]
      omega
    · exact takes_items items (by omega)
termination_by structural items

/-- After a member, from the tokens of the others and the end of the object the object is read. -/
theorem takes_members (members : List (String × Json)) {outer : List Container}
    {reversed : List (String × Json)} {last : String} {root : Json}
    (shallow : outer.length + 1 + depthMembers members ≤ maxDepth) :
    Takes ⟨.object reversed last :: outer, .separator, root⟩
      (memberLexicals members ++ [.closeObject])
      (complete ⟨outer, .separator, root⟩
        (ofMembers (reversed.reverse ++ orderedMembers members))) := by
  cases members with
  | nil =>
    refine .single fun start => ?_
    rw [orderedMembers, List.append_nil]
    rfl
  | cons member members =>
    obtain ⟨key, value⟩ := member
    rw [depthMembers] at shallow
    have isObject : reversed.reverse ++ orderedMembers ((key, value) :: members) =
        ((key, value.ordered) :: reversed).reverse ++ orderedMembers members := by
      simp [orderedMembers]
    rw [memberLexicals, List.cons_append, List.cons_append, List.cons_append, List.append_assoc,
      isObject]
    refine .cons (fun start => rfl) (.cons (fun start => rfl) (.cons (fun start => rfl) ?_))
    refine .append (takes_lexicals value (.inl rfl) ?_) ?_
    · rw [List.length_cons]
      omega
    · exact takes_members members (by omega)
termination_by structural members

end

end Reading

/-- **What is written is read.** In either style, and with blanks after it, the text of a value is
read as that value, if its numbers are whole and fit 64 bits and arrays and objects do not nest
deeper than is read; the members of objects come in the order of their keys. -/
theorem parse_render {value : Json} (exact : value.IsExact)
    (shallow : value.depth ≤ Reading.maxDepth) (style : Style) {blank : String}
    (isBlank : ∀ c ∈ blank.toList, isSpace c = true) :
    parse (value.render style ++ blank) = .ok value.ordered := by
  -- The blanks end the text of the value, and nothing comes after them.
  have written := (scans_write style value 0 exact).append (.of_isSpace isBlank)
    (Scans.blank isBlank).weaken
  obtain ⟨tokens, stop, areTokens, scanned⟩ := written 0 [] .nil
  have isScan : scan 0 (value.render style ++ blank).toList = (tokens, stop) := by
    have isText : (value.render style ++ blank).toList =
        write style 0 value ++ blank.toList ++ [] := by
      simp [render]
    rw [isText, scanned]
    simp [scan]
  -- Reading starts with nothing open, so the value that is read is the whole one.
  have taken : Reading.Takes {} value.lexicals (Reading.complete {} value.ordered) :=
    Reading.takes_lexicals value (.inl rfl) (by simpa using shallow)
  rw [List.append_nil] at areTokens
  unfold parse
  rw [isScan]
  exact bind_eq_ok_iff.mpr ⟨_, taken tokens areTokens, rfl⟩

end Stencil.Json
