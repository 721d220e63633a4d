import Stencil.Proofs.Mustache.Reach
import Stencil.Render.Data

/-!
# What data is made of

Data is in normal form: every member of an object in it is a text, an array or an object, every
element of an array is a text or an object, and that is so at every depth. Truth values and numbers
have become texts, and whatever had no form is gone.

## Main definitions

* `Json.isStructure`: an array or an object
* `Data.FitsObject`, `Data.FitsArray`: what a member and what an element may be
* `Data.IsNormal`: a value in normal form
* `Data.IsFormed`: a value made of texts, arrays and objects

## Main results

* `Data.isNormal_ofMembers`: the data of an object is in normal form
* `Data.isFormed_ofMembers`: so it is made of texts, arrays and objects
* `Data.isSuccess_of_ofJson`: nothing that is dropped is an error
-/

namespace Stencil

/-- Whether a value is made of other values. -/
def Json.isStructure : Json → Bool
  | .array _ | .object _ => true
  | .null | .bool _ | .number _ | .string _ => false

namespace Data

open Json (Contains)

/-- A value that may be a member of an object: a text, an array or an object. -/
inductive FitsObject : Json → Prop where
  | string (s : String) : FitsObject (.string s)
  | array (items : List Json) : FitsObject (.array items)
  | object (members : List (String × Json)) : FitsObject (.object members)

/-- A value that may be an element of an array: a text or an object. -/
inductive FitsArray : Json → Prop where
  | string (s : String) : FitsArray (.string s)
  | object (members : List (String × Json)) : FitsArray (.object members)

/-- A value in which, at every depth, all members of objects and all elements of arrays are such as
may be there. -/
structure IsNormal (value : Json) : Prop where
  members : ∀ {members}, value.Contains (.object members) → ∀ member ∈ members, FitsObject member.2
  items : ∀ {items}, value.Contains (.array items) → ∀ item ∈ items, FitsArray item

theorem isNormal_string (s : String) : IsNormal (.string s) where
  members contains := by cases contains
  items contains := by cases contains

theorem isNormal_array_iff {items : List Json} :
    IsNormal (.array items) ↔ ∀ item ∈ items, FitsArray item ∧ IsNormal item := by
  constructor
  · intro normal item isItem
    refine ⟨normal.items (.refl _) item isItem, ?_, ?_⟩
    · exact fun inside => normal.members (.item isItem inside)
    · exact fun inside => normal.items (.item isItem inside)
  · intro normal
    refine ⟨fun contains => ?_, fun contains => ?_⟩
    · cases contains with
      | item isItem inside => exact (normal _ isItem).2.members inside
    · cases contains with
      | refl => exact fun item isItem => (normal item isItem).1
      | item isItem inside => exact (normal _ isItem).2.items inside

theorem isNormal_object_iff {members : List (String × Json)} :
    IsNormal (.object members) ↔
      ∀ member ∈ members, FitsObject member.2 ∧ IsNormal member.2 := by
  constructor
  · intro normal member isMember
    refine ⟨normal.members (.refl _) member isMember, ?_, ?_⟩
    · exact fun inside => normal.members (.member isMember inside)
    · exact fun inside => normal.items (.member isMember inside)
  · intro normal
    refine ⟨fun contains => ?_, fun contains => ?_⟩
    · cases contains with
      | refl => exact fun member isMember => (normal member isMember).1
      | member isMember inside => exact (normal _ isMember).2.members inside
    · cases contains with
      | member isMember inside => exact (normal _ isMember).2.items inside

mutual

theorem isNormal_of_mem_ofValue (file key : String) :
    ∀ value : Json, ∀ kept ∈ (ofValue file key value).1, FitsObject kept ∧ IsNormal kept
  | .null => nofun
  | .bool _ | .number _ | .string _ => by
    rintro kept ⟨⟩
    exact ⟨.string _, isNormal_string _⟩
  | .array items => by
    rintro kept ⟨⟩
    exact ⟨.array _, isNormal_array_iff.mpr (isNormal_of_mem_ofItems file key items)⟩
  | .object members => by
    rintro kept ⟨⟩
    exact ⟨.object _, isNormal_object_iff.mpr (isNormal_of_mem_ofMembers file members)⟩

theorem isNormal_of_mem_ofItem (file key : String) :
    ∀ value : Json, ∀ kept ∈ (ofItem file key value).1, FitsArray kept ∧ IsNormal kept
  | .null | .bool _ | .number _ | .array _ => nofun
  | .string _ => by
    rintro kept ⟨⟩
    exact ⟨.string _, isNormal_string _⟩
  | .object members => by
    rintro kept ⟨⟩
    exact ⟨.object _, isNormal_object_iff.mpr (isNormal_of_mem_ofMembers file members)⟩

theorem isNormal_of_mem_ofItems (file key : String) :
    ∀ items : List Json,
      ∀ kept ∈ (ofItems file key items).1, FitsArray kept ∧ IsNormal kept
  | [] => List.forall_mem_nil _
  | item :: items => by
    intro kept isKept
    rcases List.mem_append.mp isKept with first | other
    · exact isNormal_of_mem_ofItem file key item kept (Option.mem_toList.mp first)
    · exact isNormal_of_mem_ofItems file key items kept other

theorem isNormal_of_mem_ofMembers (file : String) :
    ∀ members : List (String × Json),
      ∀ kept ∈ (ofMembers file members).1, FitsObject kept.2 ∧ IsNormal kept.2
  | [] => List.forall_mem_nil _
  | (key, value) :: members => by
    intro kept isKept
    rcases List.mem_append.mp isKept with first | other
    · obtain ⟨child, isChild, rfl⟩ := List.mem_map.mp first
      exact isNormal_of_mem_ofValue file key value child (Option.mem_toList.mp isChild)
    · exact isNormal_of_mem_ofMembers file members kept other

end

/-- The data of an object is in normal form. -/
theorem isNormal_ofMembers (file : String) (members : List (String × Json)) :
    IsNormal (.object (ofMembers file members).1) :=
  isNormal_object_iff.mpr (isNormal_of_mem_ofMembers file members)

/-- A value in which there is nothing but texts, arrays and objects. -/
def IsFormed (value : Json) : Prop :=
  ∀ inner, value.Contains inner → (∃ s, inner = .string s) ∨ inner.isStructure

theorem FitsArray.fitsObject {value : Json} (fits : FitsArray value) : FitsObject value := by
  cases fits with
  | string s => exact .string s
  | object members => exact .object members

theorem FitsObject.isString_or_isStructure {value : Json} (fits : FitsObject value) :
    (∃ s, value = .string s) ∨ value.isStructure := by
  cases fits with
  | string s => exact .inl ⟨s, rfl⟩
  | array items => exact .inr rfl
  | object members => exact .inr rfl

/-- A value in normal form that may be a member is made of texts, arrays and objects. -/
theorem IsNormal.isFormed {value : Json} (normal : IsNormal value) (fits : FitsObject value) :
    IsFormed value := by
  intro inner contains
  induction contains with
  | refl => exact fits.isString_or_isStructure
  | item isItem inside ih =>
    obtain ⟨fitsItem, normalItem⟩ := isNormal_array_iff.mp normal _ isItem
    exact ih normalItem fitsItem.fitsObject
  | member isMember inside ih =>
    obtain ⟨fitsMember, normalMember⟩ := isNormal_object_iff.mp normal _ isMember
    exact ih normalMember fitsMember

/-- The data of an object is made of texts, arrays and objects. -/
theorem isFormed_ofMembers (file : String) (members : List (String × Json)) :
    IsFormed (.object (ofMembers file members).1) :=
  (isNormal_ofMembers file members).isFormed (.object _)

/-! ### What is dropped -/

mutual

theorem isSuccess_ofValue (file key : String) :
    ∀ value : Json, (ofValue file key value).2.isSuccess = true
  | .null | .bool _ | .number _ | .string _ => rfl
  | .array items => isSuccess_ofItems file key items
  | .object members => isSuccess_ofMembers file members

theorem isSuccess_ofItem (file key : String) :
    ∀ value : Json, (ofItem file key value).2.isSuccess = true
  | .null | .bool _ | .number _ | .array _ | .string _ => rfl
  | .object members => isSuccess_ofMembers file members

theorem isSuccess_ofItems (file key : String) :
    ∀ items : List Json, (ofItems file key items).2.isSuccess = true
  | [] => rfl
  | item :: items => by
    simp only [ofItems, Diagnostics.isSuccess_append, isSuccess_ofItem file key item,
      isSuccess_ofItems file key items, Bool.and_self]

/-- What is dropped of the members of an object is worth a warning, never an error. -/
theorem isSuccess_ofMembers (file : String) :
    ∀ members : List (String × Json), (ofMembers file members).2.isSuccess = true
  | [] => rfl
  | (key, value) :: members => by
    simp only [ofMembers, Diagnostics.isSuccess_append, isSuccess_ofValue file key value,
      isSuccess_ofMembers file members, Bool.and_self]

end

/-- Bringing a document into the form of data meets no error. -/
theorem isSuccess_of_ofJson {file : String} {value data : Json} {dropped : Diagnostics}
    (isData : ofJson file value = some (data, dropped)) : dropped.isSuccess = true := by
  cases value with
  | null | bool truth | number n | string s | array items => cases isData
  | object members =>
    cases isData
    exact isSuccess_ofMembers file members

end Data

end Stencil
