import Stencil.Proofs.Render.Data

/-!
# Data is its own data

Data is in normal form, and what is in normal form is left as it is, with nothing dropped. So the
objects in normal form are those that are their own data, and bringing a document into form twice
comes to the same as doing it once.

## Main results

* `Data.ofMembers_of_isNormal`: what is in normal form stays as it is
* `Data.ofJson_eq_self_iff`: what is its own data
* `Data.ofJson_normal`: every object has data, nothing else has, and data is its own data
-/

namespace Stencil.Data

/-! ### What stays as it is -/

mutual

theorem ofValue_of_isNormal (file key : String) :
    ∀ value : Json, FitsObject value → IsNormal value → ofValue file key value = (some value, [])
  | .null, fits, _ | .bool _, fits, _ | .number _, fits, _ => by cases fits
  | .string _, _, _ => rfl
  | .array items, _, normal => by
    rw [ofValue, ofItems_of_isNormal file key items (isNormal_array_iff.mp normal)]
  | .object members, _, normal => by
    rw [ofValue, ofMembers_of_isNormal file members (isNormal_object_iff.mp normal)]

theorem ofItem_of_isNormal (file key : String) :
    ∀ value : Json, FitsArray value → IsNormal value → ofItem file key value = (some value, [])
  | .null, fits, _ | .bool _, fits, _ | .number _, fits, _ | .array _, fits, _ => by cases fits
  | .string _, _, _ => rfl
  | .object members, _, normal => by
    rw [ofItem, ofMembers_of_isNormal file members (isNormal_object_iff.mp normal)]

theorem ofItems_of_isNormal (file key : String) :
    ∀ items : List Json, (∀ item ∈ items, FitsArray item ∧ IsNormal item) →
      ofItems file key items = (items, [])
  | [], _ => rfl
  | item :: items, normal => by
    obtain ⟨⟨fits, first⟩, others⟩ := List.forall_mem_cons.mp normal
    rw [ofItems, ofItem_of_isNormal file key item fits first,
      ofItems_of_isNormal file key items others]
    rfl

/-- Members that are in normal form and may be where they are stay as they are. -/
theorem ofMembers_of_isNormal (file : String) :
    ∀ members : List (String × Json),
      (∀ member ∈ members, FitsObject member.2 ∧ IsNormal member.2) →
      ofMembers file members = (members, [])
  | [], _ => rfl
  | (key, value) :: members, normal => by
    obtain ⟨⟨fits, first⟩, others⟩ := List.forall_mem_cons.mp normal
    rw [ofMembers, ofValue_of_isNormal file key value fits first,
      ofMembers_of_isNormal file members others]
    rfl

end

/-- What bringing into form does not change are the objects in normal form. -/
theorem ofJson_eq_self_iff {file : String} {value : Json} :
    ofJson file value = some (value, []) ↔
      (∃ members, value = .object members) ∧ IsNormal value := by
  constructor
  · intro same
    cases value with
    | null | bool truth | number n | string s | array items => cases same
    | object members =>
      refine ⟨⟨members, rfl⟩, ?_⟩
      have isSelf : Json.object (ofMembers file members).1 = .object members :=
        congrArg Prod.fst (Option.some.inj same)
      exact isSelf ▸ isNormal_ofMembers file members
  · rintro ⟨⟨members, rfl⟩, normal⟩
    rw [ofJson, ofMembers_of_isNormal file members (isNormal_object_iff.mp normal)]

/-- **Data is a fixed point of the right shape.** Every object has data; this is an object in normal
form, and its data is this object itself, of which nothing is dropped. What is no object has
none. -/
theorem ofJson_normal (file : String) :
    (∀ members, ∃ data dropped,
      ofJson file (.object members) = some (.object data, dropped) ∧
        IsNormal (.object data) ∧
        ∀ other, ofJson other (.object data) = some (.object data, [])) ∧
    ∀ value, ofJson file value = none ↔ ¬ ∃ members, value = .object members := by
  refine ⟨fun members => ?_, fun value => ?_⟩
  · have normal := isNormal_ofMembers file members
    refine ⟨_, _, rfl, normal, fun other => ?_⟩
    exact ofJson_eq_self_iff.mpr ⟨⟨_, rfl⟩, normal⟩
  · cases value with
    | null | bool truth | number n | string s | array items =>
      refine iff_of_true rfl ?_
      rintro ⟨members, isObject⟩
      cases isObject
    | object members => exact iff_of_false (by rintro ⟨⟩) fun none => none ⟨members, rfl⟩

end Stencil.Data
