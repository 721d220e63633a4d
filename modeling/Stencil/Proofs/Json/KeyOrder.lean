import Stencil.Json.Reader
import Stencil.Proofs.Except
import Stencil.Proofs.Render.Data

/-!
# Members come in the order of their keys

What is read from a text has the members of every object in ascending order of their keys, and so no
key twice. A closed object is sorted, and what it holds was sorted when it was closed; so it is
enough to look at what is complete in the containers that are still open.

## Main definitions

* `Json.Ascending`, `Json.InKeyOrder`: members in the order of their keys, in one object and in all
* `Reading.InKeyOrder`: that is so of all values that are complete

## Main results

* `Json.ascending_insertMember`: adding a member keeps the order
* `Reading.InKeyOrder.feed`: a token keeps it
* `Json.inKeyOrder_of_parse`: what is read from a text has it
-/

namespace Stencil.Json

/-- The members are in ascending order of their keys. -/
def Ascending (members : List (String × Json)) : Prop := members.Pairwise fun a b => a.1 < b.1

/-- In every object in the value, the members are in ascending order of their keys. -/
def InKeyOrder (value : Json) : Prop :=
  ∀ members, value.Contains (.object members) → Ascending members

variable {key : String} {value : Json} {member : String × Json} {members : List (String × Json)}

theorem inKeyOrder_of_not_isStructure (flat : value.isStructure = false) : value.InKeyOrder := by
  intro members contains
  cases contains <;> cases flat

theorem inKeyOrder_array {items : List Json} (each : ∀ item ∈ items, item.InKeyOrder) :
    (array items).InKeyOrder := by
  intro members contains
  cases contains with
  | item isItem inside => exact each _ isItem members inside

theorem inKeyOrder_object (ascending : Ascending members)
    (each : ∀ member ∈ members, member.2.InKeyOrder) : (object members).InKeyOrder := by
  intro inner contains
  cases contains with
  | refl => exact ascending
  | member isMember inside => exact each _ isMember inner inside

/-! ### Adding members -/

theorem mem_insertMember (isMember : member ∈ insertMember key value members) :
    member = (key, value) ∨ member ∈ members := by
  induction members with
  | nil => exact .inl (List.mem_singleton.mp isMember)
  | cons first members ih =>
    obtain ⟨k, v⟩ := first
    simp only [insertMember] at isMember
    split at isMember
    · exact List.mem_cons.mp isMember
    split at isMember
    · exact (List.mem_cons.mp isMember).imp_right (List.mem_cons_of_mem _)
    · rcases List.mem_cons.mp isMember with isFirst | later
      · exact .inr (isFirst ▸ List.mem_cons_self)
      · exact (ih later).imp_right (List.mem_cons_of_mem _)

theorem ascending_insertMember (key : String) (value : Json) (ascending : Ascending members) :
    Ascending (insertMember key value members) := by
  induction members with
  | nil => exact List.pairwise_singleton _ _
  | cons first members ih =>
    obtain ⟨k, v⟩ := first
    obtain ⟨least, rest⟩ := List.pairwise_cons.mp ascending
    simp only [insertMember]
    split
    case isTrue before =>
      refine List.pairwise_cons.mpr ⟨fun member isMember => ?_, ascending⟩
      rcases List.mem_cons.mp isMember with rfl | later
      · exact before
      · exact String.lt_trans before (least member later)
    case isFalse notBefore =>
      split
      case isTrue same =>
        subst same
        exact List.pairwise_cons.mpr ⟨least, rest⟩
      case isFalse differ =>
        have after : k < key := Decidable.byContradiction fun notAfter =>
          differ (String.le_antisymm (String.not_lt.mp notAfter) (String.not_lt.mp notBefore))
        refine List.pairwise_cons.mpr ⟨fun member isMember => ?_, ih rest⟩
        rcases mem_insertMember isMember with rfl | later
        · exact after
        · exact least member later

theorem inKeyOrder_foldl_insertMember {start : List (String × Json)} (ascending : Ascending start)
    (eachOfStart : ∀ member ∈ start, member.2.InKeyOrder)
    (each : ∀ member ∈ members, member.2.InKeyOrder) :
    (object (members.foldl (fun sorted m => insertMember m.1 m.2 sorted) start)).InKeyOrder := by
  induction members generalizing start with
  | nil => exact inKeyOrder_object ascending eachOfStart
  | cons first members ih =>
    obtain ⟨isFirst, others⟩ := List.forall_mem_cons.mp each
    refine ih (ascending_insertMember _ _ ascending) (fun member isMember => ?_) others
    rcases mem_insertMember isMember with rfl | isOld
    · exact isFirst
    · exact eachOfStart member isOld

/-- Sorting the members of an object leaves what is in them as it is. -/
theorem inKeyOrder_ofMembers (each : ∀ member ∈ members, member.2.InKeyOrder) :
    (ofMembers members).InKeyOrder :=
  inKeyOrder_foldl_insertMember .nil (List.forall_mem_nil _) each

/-! ### Tokens -/

/-- The token is no array and no object already. -/
def Lexical.IsFlat (l : Lexical) : Prop := ∀ value, l = .scalar value → value.isStructure = false

namespace Token

theorem isFlat_ofRead {α : Type} {lexical : α → Lexical} {fail : Fault → Lexical}
    {result : Except Fault (α × Nat × List Char)} (each : ∀ a, (lexical a).IsFlat)
    (failed : ∀ fault, (fail fault).IsFlat) : (ofRead lexical fail result).1.IsFlat := by
  cases result with
  | error fault => exact failed fault
  | ok read => exact each read.1

theorem isFlat_next (offset : Nat) (c : Char) (s : List Char) : (next offset c s).1.IsFlat := by
  have word (value : Json) (flat : value.isStructure = false)
      (result : Except Fault (Unit × Nat × List Char)) :
      (ofRead (fun _ => .scalar value) .bad result).1.IsFlat := by
    refine isFlat_ofRead (fun _ other same => ?_) fun _ => nofun
    obtain rfl := Lexical.scalar.inj same
    exact flat
  unfold next
  -- Strings are tokens of their own; the scalars are the three words and the numbers.
  split
  case h_7 => exact isFlat_ofRead (fun _ => nofun) fun _ => nofun
  case h_8 | h_9 | h_10 => exact word _ rfl _
  case h_11 =>
    split
    · refine isFlat_ofRead (fun number other same => ?_) fun _ => nofun
      obtain rfl := Lexical.scalar.inj same
      rfl
    · exact nofun
  all_goals exact nofun

theorem isFlat_of_mem_scan (offset : Nat) (s : List Char) :
    ∀ token ∈ (scan offset s).1, token.lexical.IsFlat := by
  fun_induction scan offset s with
  | case1 => exact List.forall_mem_nil _
  | case2 offset c s blank ih => exact ih
  | case3 offset c s notBlank tokens stop isScan ih =>
    rw [isScan] at ih
    exact List.forall_mem_cons.mpr ⟨isFlat_next offset c s, ih⟩

end Token

/-! ### Reading -/

/-- The values in a container that are complete. -/
def Container.values : Container → List Json
  | .array reversed => reversed
  | .object reversed _ => reversed.map Prod.snd

namespace Reading

variable {r r' : Reading} {token : Token}

/-- All values that are complete have their members in the order of their keys. -/
structure InKeyOrder (r : Reading) : Prop where
  opened : ∀ container ∈ r.opened, ∀ value ∈ container.values, value.InKeyOrder
  root : r.root.InKeyOrder

namespace InKeyOrder

theorem complete (inOrder : r.InKeyOrder) (isValue : value.InKeyOrder) :
    (r.complete value).InKeyOrder := by
  unfold Reading.complete
  split
  case h_1 nothing =>
    exact ⟨inOrder.opened, isValue⟩
  case h_2 items outer isOpened =>
    obtain ⟨here, others⟩ := List.forall_mem_cons.mp (isOpened ▸ inOrder.opened)
    exact ⟨List.forall_mem_cons.mpr ⟨List.forall_mem_cons.mpr ⟨isValue, here⟩, others⟩,
      inOrder.root⟩
  case h_3 members key outer isOpened =>
    obtain ⟨here, others⟩ := List.forall_mem_cons.mp (isOpened ▸ inOrder.opened)
    exact ⟨List.forall_mem_cons.mpr ⟨List.forall_mem_cons.mpr ⟨isValue, here⟩, others⟩,
      inOrder.root⟩

theorem closeContainer (inOrder : r.InKeyOrder) : r.closeContainer.InKeyOrder := by
  unfold Reading.closeContainer
  split
  case h_1 => exact inOrder
  case h_2 items outer isOpened =>
    obtain ⟨here, others⟩ := List.forall_mem_cons.mp (isOpened ▸ inOrder.opened)
    have outside : InKeyOrder { r with opened := outer } := ⟨others, inOrder.root⟩
    exact outside.complete
      (inKeyOrder_array fun item isItem => here item (List.mem_reverse.mp isItem))
  case h_3 members key outer isOpened =>
    obtain ⟨here, others⟩ := List.forall_mem_cons.mp (isOpened ▸ inOrder.opened)
    have outside : InKeyOrder { r with opened := outer } := ⟨others, inOrder.root⟩
    exact outside.complete (inKeyOrder_ofMembers fun member isMember =>
      here member.2 (List.mem_map_of_mem (List.mem_reverse.mp isMember)))

theorem openContainer {container : Container} {awaited : Awaited} (inOrder : r.InKeyOrder)
    (fresh : container.values = [])
    (taken : r.openContainer token container awaited = .ok r') : r'.InKeyOrder := by
  unfold Reading.openContainer at taken
  split at taken
  · obtain rfl := Except.ok.inj taken
    refine ⟨List.forall_mem_cons.mpr ⟨?_, inOrder.opened⟩, inOrder.root⟩
    rw [fresh]
    exact List.forall_mem_nil _
  · cases taken

theorem feedValue (inOrder : r.InKeyOrder) (flat : token.lexical.IsFlat)
    (taken : r.feedValue token = .ok r') : r'.InKeyOrder := by
  unfold Reading.feedValue at taken
  split at taken
  case h_1 value isString =>
    obtain rfl := Except.ok.inj taken
    exact inOrder.complete (inKeyOrder_of_not_isStructure rfl)
  case h_2 value isScalar =>
    obtain rfl := Except.ok.inj taken
    exact inOrder.complete (inKeyOrder_of_not_isStructure (flat value isScalar))
  case h_3 => exact inOrder.openContainer rfl taken
  case h_4 => exact inOrder.openContainer rfl taken
  all_goals cases taken

theorem feedKey (inOrder : r.InKeyOrder) (taken : r.feedKey token = .ok r') : r'.InKeyOrder := by
  unfold Reading.feedKey at taken
  split at taken
  case h_1 key members previous outer isKey isOpened =>
    obtain rfl := Except.ok.inj taken
    obtain ⟨here, others⟩ := List.forall_mem_cons.mp (isOpened ▸ inOrder.opened)
    exact ⟨List.forall_mem_cons.mpr ⟨here, others⟩, inOrder.root⟩
  all_goals cases taken

theorem feedSeparator (inOrder : r.InKeyOrder) (taken : r.feedSeparator token = .ok r') :
    r'.InKeyOrder := by
  unfold Reading.feedSeparator at taken
  split at taken
  case h_1 | h_4 =>
    obtain rfl := Except.ok.inj taken
    exact ⟨inOrder.opened, inOrder.root⟩
  case h_2 | h_5 =>
    obtain rfl := Except.ok.inj taken
    exact inOrder.closeContainer
  all_goals cases taken

/-- A token that is taken in keeps the order. -/
theorem feed (inOrder : r.InKeyOrder) (flat : token.lexical.IsFlat)
    (taken : r.feed token = .ok r') : r'.InKeyOrder := by
  unfold Reading.feed at taken
  -- What may come next and the token decide which step is taken; all other pairs are faults.
  split at taken
  case h_1 | h_3 | h_5 => exact inOrder.feedValue flat taken
  case h_2 | h_6 =>
    obtain rfl := Except.ok.inj taken
    exact inOrder.closeContainer
  case h_7 | h_9 => exact inOrder.feedKey taken
  case h_10 =>
    obtain rfl := Except.ok.inj taken
    exact ⟨inOrder.opened, inOrder.root⟩
  case h_12 => exact inOrder.feedSeparator taken
  all_goals cases taken

end InKeyOrder

theorem eq_root_of_finish {size : Nat} (done : r.finish size = .ok value) : value = r.root := by
  unfold finish at done
  split at done
  case h_1 => exact (Except.ok.inj done).symm
  all_goals cases done

end Reading

/-- What is read from a text has its members in the order of their keys, at every depth. -/
theorem inKeyOrder_of_parse {text : String} (parsed : parse text = .ok value) :
    value.InKeyOrder := by
  obtain ⟨reading, taken, done⟩ := bind_eq_ok_iff.mp parsed
  have start : Reading.InKeyOrder {} :=
    ⟨List.forall_mem_nil _, inKeyOrder_of_not_isStructure rfl⟩
  have inOrder : reading.InKeyOrder :=
    of_foldlM_eq_ok (fun token isToken _ _ holds isNext =>
      holds.feed (Token.isFlat_of_mem_scan 0 text.toList token isToken) isNext) start taken
  exact Reading.eq_root_of_finish done ▸ inOrder.root

end Stencil.Json
