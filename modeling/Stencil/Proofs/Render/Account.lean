import Mathlib.Data.List.Forall2
import Stencil.Proofs.Json.KeyOrder
import Stencil.Proofs.Json.RoundTrip

/-!
# An account of what is dropped

What an object holds are its members, what these hold if they are objects or arrays, and so on; but
of the elements of an array only those that are objects hold anything that counts. Walking over all
of it in order, one comes by every part that has a form of text and by every part that has none. The
data of the object has the former, in the same order and nested in the same way, and the warnings
name the latter one by one.

Places are told by counting, so that nothing has to be said of keys that occur twice. The walk is
not given by a function but by what it has to do: it comes by every part, at its place, and by
earlier places first. So it comes by a part before it comes by what that holds, and how deep the
parts are nested, one after the other, tells what is nested in what.

## Main definitions

* `Data.Part`, `Data.Part.inner`: a member or an element, and what it holds
* `Data.StandsAt`: a part stands at a place
* `Data.IsTraversal`: all parts with their places, in order
* `Data.Part.isDropped`, `Data.Part.Becomes`: a part has no form, or it has that one
* `Data.Account`: what is left, and what is reported, part by part

## Main results

* `Data.IsTraversal.cons`: a walk goes over a part, what it holds, and the parts after it
* `Data.exists_account_ofMembers`: bringing an object into form leaves and reports what it should
* `Data.ofJson_account`: all of it, for a document
-/

namespace Stencil.Data

/-! ### Parts and places -/

/-- Something that an object holds. -/
inductive Part where
  /-- A member of an object. -/
  | member (key : String) (value : Json)
  /-- An element of the array that is the member at `key`. -/
  | element (key : String) (value : Json)

/-- The members of an object, as parts. -/
def partsOf (members : List (String × Json)) : List Part :=
  members.map fun (key, value) => .member key value

/-- The parts that a part holds: the members of an object, and the elements of an array that is
itself a member. -/
def Part.inner : Part → List Part
  | member _ (.object members) | element _ (.object members) => partsOf members
  | member key (.array items) => items.map (element key)
  | member _ _ | element _ _ => []

/-- A part stands at a place: after so many others, in the part that stands after so many others,
and so on, told from the outside. -/
inductive StandsAt : List Part → List Nat → Part → Prop where
  | here {parts : List Part} {i : Nat} {part : Part} (isPart : parts[i]? = some part) :
    StandsAt parts [i] part
  | within {parts : List Part} {i : Nat} {place : List Nat} {outer part : Part}
    (isOuter : parts[i]? = some outer) (inside : StandsAt outer.inner place part) :
    StandsAt parts (i :: place) part

namespace StandsAt

variable {parts : List Part} {place rest : List Nat} {part first outer : Part}

theorem exists_cons (stands : StandsAt parts place part) : ∃ i rest, place = i :: rest := by
  cases stands with
  | here isPart => exact ⟨_, [], rfl⟩
  | within isOuter inside => exact ⟨_, _, rfl⟩

theorem not_nil : ¬ StandsAt [] place part := by
  intro stands
  cases stands with
  | here isPart => cases isPart
  | within isOuter inside => cases isOuter

/-- What stands among parts is the first of them, or stands in it or among the others. -/
theorem cons_iff :
    StandsAt (first :: parts) place part ↔
      (place = [0] ∧ part = first) ∨
      (∃ rest, place = 0 :: rest ∧ StandsAt first.inner rest part) ∨
      ∃ i rest, place = (i + 1) :: rest ∧ StandsAt parts (i :: rest) part := by
  constructor
  · intro stands
    cases stands with
    | @here _ i _ isPart =>
      cases i with
      | zero => exact .inl ⟨rfl, (Option.some.inj isPart).symm⟩
      | succ i => exact .inr (.inr ⟨i, [], rfl, .here isPart⟩)
    | @within _ i rest outer _ isOuter inside =>
      cases i with
      | zero =>
        obtain rfl := Option.some.inj isOuter
        exact .inr (.inl ⟨rest, rfl, inside⟩)
      | succ i => exact .inr (.inr ⟨i, rest, rfl, .within isOuter inside⟩)
  · rintro (⟨rfl, rfl⟩ | ⟨rest, rfl, inside⟩ | ⟨i, rest, rfl, stands⟩)
    · exact .here rfl
    · exact .within rfl inside
    · cases stands with
      | here isPart => exact .here isPart
      | within isOuter inside => exact .within isOuter inside

/-- What stands below a place stands in the part that is there. -/
theorem of_append (stands : StandsAt parts place outer)
    (below : StandsAt parts (place ++ rest) part) :
    (rest = [] ∧ part = outer) ∨ StandsAt outer.inner rest part := by
  induction stands with
  | here isOuter =>
    cases below with
    | here isPart => exact .inl ⟨rfl, Option.some.inj (isPart.symm.trans isOuter)⟩
    | within isOuter' inside =>
      obtain rfl := Option.some.inj (isOuter'.symm.trans isOuter)
      exact .inr inside
  | @within _ i place around _ isAround inside ih =>
    -- There is more to this place than its first number, so what is below it is inside as well.
    obtain ⟨j, place, rfl⟩ := inside.exists_cons
    cases below with
    | within isAround' inside' =>
      obtain rfl := Option.some.inj (isAround'.symm.trans isAround)
      exact ih inside'

end StandsAt

/-! ### Walking over the parts -/

/-- A part that a walk comes by, and where it stands. -/
@[ext] structure Visit where
  place : List Nat
  part : Part

/-- The visits are those of a walk over the parts: it comes by what stands anywhere, and by nothing
else, first by an object or an array and then by what it holds, and by what comes before first. -/
structure IsTraversal (parts : List Part) (visits : List Visit) : Prop where
  ordered : visits.Pairwise fun v w => v.place < w.place
  mem_iff : ∀ visit, visit ∈ visits ↔ StandsAt parts visit.place visit.part

namespace Visit

/-- The visit, if the part visited is in the first one of several. -/
def inFirst (v : Visit) : Visit := { v with place := 0 :: v.place }

/-- The visit, if there is one more part in front. -/
def later (v : Visit) : Visit := { v with place := v.place.modifyHead (· + 1) }

@[simp] theorem part_inFirst (v : Visit) : v.inFirst.part = v.part := rfl

@[simp] theorem part_later (v : Visit) : v.later.part = v.part := rfl

end Visit

namespace IsTraversal

variable {part : Part} {parts : List Part} {visits below others : List Visit} {v w : Visit}

theorem nil : IsTraversal [] [] where
  ordered := .nil
  mem_iff _ := iff_of_false List.not_mem_nil StandsAt.not_nil

theorem exists_place_eq_cons (walk : IsTraversal parts visits) (isVisit : v ∈ visits) :
    ∃ i rest, v.place = i :: rest ∧ v.later.place = (i + 1) :: rest := by
  obtain ⟨i, rest, isPlace⟩ := ((walk.mem_iff v).mp isVisit).exists_cons
  exact ⟨i, rest, isPlace, congrArg (List.modifyHead (· + 1)) isPlace⟩

theorem pairwise_cons (inner : IsTraversal part.inner below) (outer : IsTraversal parts others) :
    (⟨[0], part⟩ :: (below.map Visit.inFirst ++ others.map Visit.later)).Pairwise
      fun v w => v.place < w.place := by
  rw [List.pairwise_cons, List.pairwise_append, List.pairwise_map, List.pairwise_map]
  refine ⟨?first, ?inner, ?outer, ?across⟩
  case first =>
    intro w isAfter
    rcases List.mem_append.mp isAfter with isBelow | isOther
    · obtain ⟨v, isVisit, rfl⟩ := List.mem_map.mp isBelow
      obtain ⟨i, rest, isPlace, -⟩ := inner.exists_place_eq_cons isVisit
      simp [Visit.inFirst, isPlace]
    · obtain ⟨v, isVisit, rfl⟩ := List.mem_map.mp isOther
      obtain ⟨i, rest, -, isPlace⟩ := outer.exists_place_eq_cons isVisit
      simp [isPlace, List.cons_lt_cons_iff]
  case inner =>
    refine inner.ordered.imp fun before => ?_
    exact List.cons_lt_cons_iff.mpr (.inr ⟨rfl, before⟩)
  case outer =>
    refine outer.ordered.imp_of_mem fun {v w} isVisit isVisit' before => ?_
    obtain ⟨i, rest, isPlace, isLater⟩ := outer.exists_place_eq_cons isVisit
    obtain ⟨j, rest', isPlace', isLater'⟩ := outer.exists_place_eq_cons isVisit'
    rw [isPlace, isPlace', List.cons_lt_cons_iff] at before
    rw [isLater, isLater', List.cons_lt_cons_iff]
    exact before.imp Nat.succ_lt_succ fun ⟨same, less⟩ => ⟨congrArg (· + 1) same, less⟩
  case across =>
    -- Places in the first part begin with zero, and places after it do not.
    intro v isBelow w isOther
    obtain ⟨v, -, rfl⟩ := List.mem_map.mp isBelow
    obtain ⟨w, isVisit, rfl⟩ := List.mem_map.mp isOther
    obtain ⟨i, rest, -, isPlace⟩ := outer.exists_place_eq_cons isVisit
    simp [Visit.inFirst, isPlace, List.cons_lt_cons_iff]

theorem mem_cons_iff (inner : IsTraversal part.inner below) (outer : IsTraversal parts others)
    (v : Visit) :
    v ∈ ⟨[0], part⟩ :: (below.map Visit.inFirst ++ others.map Visit.later) ↔
      StandsAt (part :: parts) v.place v.part := by
  obtain ⟨place, p⟩ := v
  rw [List.mem_cons, List.mem_append, List.mem_map, List.mem_map, StandsAt.cons_iff]
  refine or_congr ?first (or_congr ?inner ?outer)
  case first => rw [Visit.ext_iff]
  case inner =>
    constructor
    · rintro ⟨v, isVisit, same⟩
      cases same
      exact ⟨v.place, rfl, (inner.mem_iff v).mp isVisit⟩
    · rintro ⟨rest, rfl, stands⟩
      exact ⟨⟨rest, p⟩, (inner.mem_iff ⟨rest, p⟩).mpr stands, rfl⟩
  case outer =>
    constructor
    · rintro ⟨v, isVisit, same⟩
      obtain ⟨i, rest, isPlace, isLater⟩ := outer.exists_place_eq_cons isVisit
      have stands := (outer.mem_iff v).mp isVisit
      cases same
      exact ⟨i, rest, isLater, isPlace ▸ stands⟩
    · rintro ⟨i, rest, rfl, stands⟩
      exact ⟨⟨i :: rest, p⟩, (outer.mem_iff ⟨i :: rest, p⟩).mpr stands, rfl⟩

/-- A walk goes over the first part, then over what it holds, and then over the others. -/
theorem cons (inner : IsTraversal part.inner below) (outer : IsTraversal parts others) :
    IsTraversal (part :: parts)
      (⟨[0], part⟩ :: (below.map Visit.inFirst ++ others.map Visit.later)) :=
  ⟨inner.pairwise_cons outer, inner.mem_cons_iff outer⟩

end IsTraversal

/-! ### What is dropped and what is kept -/

namespace Part

/-- The part has no form: it is a member that is `null`, or an element that is neither a text nor an
object. -/
def isDropped : Part → Bool
  | member _ .null => true
  | member _ _ => false
  | element _ (.string _) | element _ (.object _) => false
  | element _ _ => true

/-- The warning that a part was dropped. It names the key of the member that it is, or that it is an
element of. -/
def warning (file : String) : Part → Diagnostic
  | member key _ => memberDropped file key
  | element key _ => elementDropped file key

/-- What is dropped holds nothing that counts. -/
theorem inner_of_isDropped {part : Part} (dropped : part.isDropped = true) : part.inner = [] := by
  cases part with
  | member key value => cases value <;> first | rfl | cases dropped
  | element key value => cases value <;> first | rfl | cases dropped

end Part

/-- What comes of a value: a text stays, a truth value and a number become texts, and of an array
comes an array and of an object an object, whatever comes of what they hold. -/
inductive KeptAs : Json → Json → Prop where
  | string (s : String) : KeptAs (.string s) (.string s)
  | bool (truth : Bool) : KeptAs (.bool truth) (.string (truthText truth))
  | number (n : Json.Number) : KeptAs (.number n) (.string (n.text Json.Number.dataLayout))
  | array (items items' : List Json) : KeptAs (.array items) (.array items')
  | object (members members' : List (String × Json)) : KeptAs (.object members) (.object members')

/-- What comes of a part: a member with the same key, or an element of the array at the same key. -/
inductive Part.Becomes : Part → Part → Prop where
  | member {value value' : Json} (key : String) (kept : KeptAs value value') :
    Becomes (.member key value) (.member key value')
  | element {value value' : Json} (key : String) (kept : KeptAs value value') :
    Becomes (.element key value) (.element key value')

/-- What comes of a part that is visited: one that is nested as deep. -/
structure Visit.Becomes (v w : Visit) : Prop where
  depth : v.place.length = w.place.length
  part : v.part.Becomes w.part

namespace Visit.Becomes

variable {v w : Visit}

theorem inFirst (becomes : v.Becomes w) : v.inFirst.Becomes w.inFirst :=
  ⟨congrArg (· + 1) becomes.depth, becomes.part⟩

theorem later_left (becomes : v.Becomes w) : v.later.Becomes w where
  depth := (List.length_modifyHead ..).trans becomes.depth
  part := becomes.part

theorem later (becomes : v.Becomes w) : v.later.Becomes w.later where
  depth := becomes.later_left.depth.trans (List.length_modifyHead ..).symm
  part := becomes.part

end Visit.Becomes

/-- An account of the parts: `parts'` is what is left of them, `warnings` is what is reported, and
the visits are those of a walk over the former and the latter parts. Each part that is dropped is
reported, each other part is left, both in order. -/
structure Account (file : String) (parts parts' : List Part) (warnings : Diagnostics)
    (visits visits' : List Visit) : Prop where
  before : IsTraversal parts visits
  after : IsTraversal parts' visits'
  reported : warnings = (visits.filter (·.part.isDropped)).map (·.part.warning file)
  left : List.Forall₂ Visit.Becomes (visits.filter (!·.part.isDropped)) visits'

namespace Account

variable {file : String} {part part' : Part} {parts parts' : List Part}
  {problems warnings : Diagnostics} {below below' visits visits' : List Visit}

theorem nil : Account file [] [] [] [] [] where
  before := .nil
  after := .nil
  reported := rfl
  left := .nil

theorem drop (dropped : part.isDropped = true)
    (others : Account file parts parts' warnings visits visits') :
    Account file (part :: parts) parts' (part.warning file :: warnings)
      (⟨[0], part⟩ :: visits.map Visit.later) visits' where
  before := by
    have nothing : IsTraversal part.inner [] := Part.inner_of_isDropped dropped ▸ .nil
    exact nothing.cons others.before
  after := others.after
  reported := by
    rw [others.reported]
    simp [dropped, List.filter_map, Function.comp_def]
  left := by
    have notLeft : ¬ (!part.isDropped) = true := by simp [dropped]
    rw [List.filter_cons, if_neg notLeft, List.filter_map, List.forall₂_map_left_iff]
    exact others.left.imp fun v w becomes => becomes.later_left

theorem keep (kept : part.isDropped = false) (becomes : part.Becomes part')
    (inner : Account file part.inner part'.inner problems below below')
    (others : Account file parts parts' warnings visits visits') :
    Account file (part :: parts) (part' :: parts') (problems ++ warnings)
      (⟨[0], part⟩ :: (below.map Visit.inFirst ++ visits.map Visit.later))
      (⟨[0], part'⟩ :: (below'.map Visit.inFirst ++ visits'.map Visit.later)) where
  before := inner.before.cons others.before
  after := inner.after.cons others.after
  reported := by
    rw [inner.reported, others.reported]
    simp [kept, List.filter_map, Function.comp_def]
  left := by
    have isLeft : (!part.isDropped) = true := by simp [kept]
    rw [List.filter_cons, if_pos isLeft, List.filter_append, List.filter_map, List.filter_map]
    refine .cons ⟨rfl, becomes⟩ (List.rel_append ?_ ?_)
    · rw [List.forall₂_map_left_iff, List.forall₂_map_right_iff]
      exact inner.left.imp fun v w becomes => becomes.inFirst
    · rw [List.forall₂_map_left_iff, List.forall₂_map_right_iff]
      exact others.left.imp fun v w becomes => becomes.later

end Account

/-! ### Bringing an object into form -/

/-- What is made of a value that is part of something, if `role` makes that part of it: it is
dropped and reported, or something is left of it, with an account of what it holds. -/
inductive Treats (file : String) (role : Json → Part) (value : Json) :
    Option Json × Diagnostics → Prop where
  | drop (dropped : (role value).isDropped = true) :
    Treats file role value (none, [(role value).warning file])
  | keep {value' : Json} {problems : Diagnostics} {below below' : List Visit}
    (kept : (role value).isDropped = false) (becomes : (role value).Becomes (role value'))
    (inner : Account file (role value).inner (role value').inner problems below below') :
    Treats file role value (some value', problems)

theorem Treats.exists_account_cons {file : String} {role : Json → Part} {value : Json}
    {result : Option Json × Diagnostics} {parts parts' : List Part} {warnings : Diagnostics}
    (treats : Treats file role value result)
    (others : ∃ visits visits', Account file parts parts' warnings visits visits') :
    ∃ visits visits', Account file (role value :: parts) (result.1.toList.map role ++ parts')
      (result.2 ++ warnings) visits visits' := by
  obtain ⟨visits, visits', others⟩ := others
  cases treats with
  | drop dropped => exact ⟨_, _, others.drop dropped⟩
  | keep kept becomes inner => exact ⟨_, _, inner.keep kept becomes others⟩

mutual

theorem treats_ofValue (file key : String) :
    ∀ value : Json, Treats file (.member key) value (ofValue file key value)
  | .null => .drop rfl
  | .bool truth => .keep rfl (.member key (.bool truth)) .nil
  | .number n => .keep rfl (.member key (.number n)) .nil
  | .string s => .keep rfl (.member key (.string s)) .nil
  | .array items => by
    obtain ⟨below, below', inner⟩ := exists_account_ofItems file key items
    exact .keep rfl (.member key (.array items _)) inner
  | .object members => by
    obtain ⟨below, below', inner⟩ := exists_account_ofMembers file members
    exact .keep rfl (.member key (.object members _)) inner

theorem treats_ofItem (file key : String) :
    ∀ value : Json, Treats file (.element key) value (ofItem file key value)
  -- An array in an array is dropped with all it holds, whatever that is.
  | .null | .bool _ | .number _ | .array _ => .drop rfl
  | .string s => .keep rfl (.element key (.string s)) .nil
  | .object members => by
    obtain ⟨below, below', inner⟩ := exists_account_ofMembers file members
    exact .keep rfl (.element key (.object members _)) inner

theorem exists_account_ofItems (file key : String) :
    ∀ items : List Json, ∃ visits visits',
      Account file (items.map (.element key)) ((ofItems file key items).1.map (.element key))
        (ofItems file key items).2 visits visits'
  | [] => ⟨[], [], .nil⟩
  | item :: items => by
    have account := (treats_ofItem file key item).exists_account_cons
      (exists_account_ofItems file key items)
    rwa [← List.map_append] at account

/-- Bringing an object into form leaves the parts that have a form, and reports the others. -/
theorem exists_account_ofMembers (file : String) :
    ∀ members : List (String × Json), ∃ visits visits',
      Account file (partsOf members) (partsOf (ofMembers file members).1)
        (ofMembers file members).2 visits visits'
  | [] => ⟨[], [], .nil⟩
  | (key, value) :: members => by
    have account := (treats_ofValue file key value).exists_account_cons
      (exists_account_ofMembers file members)
    have isLeft : partsOf (ofMembers file ((key, value) :: members)).1 =
        (ofValue file key value).1.toList.map (.member key) ++
          partsOf (ofMembers file members).1 := by
      simp [ofMembers, partsOf]
    rwa [isLeft]

end

/-- A walk comes by nothing that is below a part that is dropped. -/
theorem IsTraversal.eq_of_isDropped {parts : List Part} {visits : List Visit} {v w : Visit}
    (walk : IsTraversal parts visits) (isVisit : v ∈ visits) (dropped : v.part.isDropped = true)
    (isVisit' : w ∈ visits) (below : v.place <+: w.place) : w = v := by
  obtain ⟨rest, isPlace⟩ := below
  have stands : StandsAt parts v.place v.part := (walk.mem_iff v).mp isVisit
  have standsBelow : StandsAt parts (v.place ++ rest) w.part :=
    isPlace ▸ (walk.mem_iff w).mp isVisit'
  rcases stands.of_append standsBelow with ⟨rfl, samePart⟩ | inside
  · rw [List.append_nil] at isPlace
    exact Visit.ext isPlace.symm samePart
  · rw [Part.inner_of_isDropped dropped] at inside
    exact absurd inside StandsAt.not_nil

/-- **Nothing is dropped silently.** The data of an object is what is left of its parts: all of them
that have a form, in order and nested as they were, with the same keys. The warnings are one for
each part that has none, in order, with its key; a walk comes by nothing below such a part, and
there are no warnings just if there is no such part. The order is that in which the members are
listed, which for an object that is read from a text is the order of their keys. -/
theorem ofJson_account (file : String) (members : List (String × Json)) :
    (∃ data warnings visits visits',
      ofJson file (.object members) = some (.object data, warnings) ∧
      Account file (partsOf members) (partsOf data) warnings visits visits' ∧
      (∀ v ∈ visits, v.part.isDropped = true → ∀ w ∈ visits, v.place <+: w.place → w = v) ∧
      (warnings = [] ↔ ∀ v ∈ visits, v.part.isDropped = false)) ∧
    ∀ text, Json.parse text = .ok (.object members) → (Json.object members).InKeyOrder := by
  refine ⟨?_, fun text parsed => Json.inKeyOrder_of_parse parsed⟩
  obtain ⟨visits, visits', account⟩ := exists_account_ofMembers file members
  refine ⟨_, _, visits, visits', rfl, account, ?_, ?_⟩
  · exact fun v isVisit dropped w isVisit' below =>
      account.before.eq_of_isDropped isVisit dropped isVisit' below
  · rw [account.reported, List.map_eq_nil_iff, List.filter_eq_nil_iff]
    simp only [Bool.not_eq_true]

end Stencil.Data

namespace Stencil.Sample

/-- An object with parts that have no form, at several depths, and with its keys out of order. -/
def lossy : Json :=
  .object
    [("c", .bool true),
     ("b", .array [.number (.integer 1), .array [.null], .object [("x", .null)]]),
     ("a", .null)]

/-- The members that are read from its text. -/
def losses : List (String × Json) :=
  [("a", .null),
   ("b", .array [.number (.integer 1), .array [.null], .object [("x", .null)]]),
   ("c", .bool true)]

end Stencil.Sample

namespace Stencil.Data

theorem ofJson_account_losses :
    Json.parse (Sample.lossy.render .compact ++ "\n") = .ok (.object Sample.losses) ∧
    (Json.object Sample.losses).InKeyOrder ∧
    ∃ visits visits', Account "d.json" (partsOf Sample.losses)
      (partsOf [("b", .array [.object []]), ("c", .string "true")])
      [memberDropped "d.json" "a", elementDropped "d.json" "b", elementDropped "d.json" "b",
        memberDropped "d.json" "x"] visits visits' := by
  have exact : Sample.lossy.IsExact := by
    have one : (Json.number (.integer 1)).IsExact := .number ⟨by decide, by decide⟩
    have inArray : (Json.array [.null]).IsExact := .array (List.forall_mem_singleton.mpr .null)
    have inObject : (Json.object [("x", .null)]).IsExact :=
      .object (List.forall_mem_singleton.mpr .null)
    have items : (Json.array [.number (.integer 1), .array [.null],
        .object [("x", .null)]]).IsExact := .array (by simp [one, inArray, inObject])
    exact .object (by simp [items, Json.IsExact.bool, Json.IsExact.null])
  have parsed : Json.parse (Sample.lossy.render .compact ++ "\n") = .ok (.object Sample.losses) :=
    Json.parse_render exact (by decide) .compact (List.forall_mem_singleton.mpr rfl)
  have isData : ofJson "d.json" (.object Sample.losses) =
      some (.object [("b", .array [.object []]), ("c", .string "true")],
        [memberDropped "d.json" "a", elementDropped "d.json" "b", elementDropped "d.json" "b",
          memberDropped "d.json" "x"]) := rfl
  obtain ⟨⟨data, warnings, visits, visits', isData', account, -⟩, inOrder⟩ :=
    ofJson_account "d.json" Sample.losses
  obtain ⟨sameData, rfl⟩ := Prod.mk.inj (Option.some.inj (isData.symm.trans isData'))
  obtain rfl := Json.object.inj sameData
  exact ⟨parsed, inOrder _ parsed, visits, visits', account⟩

end Stencil.Data
