import Mathlib.Data.Finset.Card
import Mathlib.Data.List.Induction
import Mathlib.Data.List.Nodup
import Stencil.Registry

/-!
# Declaring many things

A run of declarations is accepted as a whole if no name is taken and none comes twice. If it is not
accepted as a whole, each name stays with the first thing declared under it.

## Main definitions

* `Registry.Accepts`: names under which things can be declared, one after the other
* `Registry.Distinct`: no two things go by the same name

## Main results

* `Registry.get?_foldl_insertNew`: what goes by a name after a run of declarations
* `Registry.names_ofList`: the names in the order in which they were first declared
* `Registry.ofList_first`: what there is after a run of declarations, and what the next one comes to
-/

namespace Stencil

namespace Registry

variable {α : Type} [Named α] {r : Registry α} {a : α} {name : String} {names : List String}

/-- Things of these names can be declared, one after the other. -/
def Accepts (r : Registry α) (names : List String) : Prop :=
  names.Nodup ∧ ∀ name ∈ names, r.contains name = false

theorem accepts_empty_iff : (empty : Registry α).Accepts names ↔ names.Nodup := by
  simp [Accepts, empty, contains]

theorem contains_append :
    (⟨r.toList ++ [a]⟩ : Registry α).contains name = (r.contains name || Named.name a = name) := by
  simp [contains, toList]

/-- The first of several names must be free, and the others after it. -/
theorem accepts_cons_iff :
    r.Accepts (Named.name a :: names) ↔
      r.contains (Named.name a) = false ∧ Accepts ⟨r.toList ++ [a]⟩ names := by
  simp only [Accepts, List.nodup_cons, List.forall_mem_cons, contains_append, Bool.or_eq_false_iff,
    decide_eq_false_iff_not]
  constructor
  · rintro ⟨⟨notLater, distinct⟩, free, othersFree⟩
    refine ⟨free, distinct, fun name member => ⟨othersFree name member, ?_⟩⟩
    rintro rfl
    exact notLater member
  · rintro ⟨free, distinct, othersFree⟩
    refine ⟨⟨fun later => (othersFree _ later).2 rfl, distinct⟩, free, fun name member => ?_⟩
    exact (othersFree name member).1

/-! ### The first declaration wins -/

theorem get?_of_free (free : r.contains name = false) : r.get? name = none := by
  rwa [contains_eq_isSome_get?, Option.isSome_eq_false_iff, Option.isNone_iff_eq_none] at free

theorem insertNew_of_free (free : r.contains (Named.name a) = false) :
    r.insertNew a = ⟨r.toList ++ [a]⟩ := by
  simp only [insertNew, insert_of_free free]

theorem insertNew_of_taken (taken : r.contains (Named.name a) = true) : r.insertNew a = r := by
  obtain ⟨holder, -, refused⟩ := insert_of_taken taken
  simp only [insertNew, refused]

/-- What is found under a name goes by it. -/
theorem name_of_get?_eq_some (found : r.get? name = some a) : Named.name a = name := by
  have holds := List.find?_some found
  exact of_decide_eq_true holds

@[simp] theorem get?_empty : (empty : Registry α).get? name = none := rfl

/-- A new declaration is found under its name, unless another thing is. -/
theorem get?_insertNew :
    (r.insertNew a).get? name =
      (r.get? name).or (if Named.name a = name then some a else none) := by
  cases taken : r.contains (Named.name a) with
  | false =>
    rw [insertNew_of_free taken]
    by_cases same : Named.name a = name <;> simp [get?, toList, List.find?_append, same]
  | true =>
    rw [insertNew_of_taken taken]
    by_cases same : Named.name a = name
    · subst same
      rw [contains_eq_isSome_get?] at taken
      obtain ⟨holder, found⟩ := Option.isSome_iff_exists.mp taken
      rw [found, Option.some_or]
    · rw [if_neg same, Option.or_none]

/-- After a run of declarations, a name stands for what it stood for before, or else for the first
thing declared under it. -/
theorem get?_foldl_insertNew (l : List α) :
    (l.foldl insertNew r).get? name = (r.get? name).or (l.find? (Named.name · = name)) := by
  induction l generalizing r with
  | nil => rw [List.foldl_nil, List.find?_nil, Option.or_none]
  | cons a l ih =>
    rw [List.foldl_cons, ih, get?_insertNew, Option.or_assoc, List.find?_cons]
    by_cases same : Named.name a = name <;> simp [same]

theorem ofList_concat (l : List α) (a : α) : ofList (l ++ [a]) = (ofList l).insertNew a :=
  List.foldl_concat ..

theorem get?_ofList (l : List α) : (ofList l).get? name = l.find? (Named.name · = name) :=
  get?_foldl_insertNew l

/-- Erasing repetitions keeps a last entry if it does not occur before. -/
theorem eraseDups_concat (names : List String) (last : String) :
    (names ++ [last]).eraseDups =
      if last ∈ names then names.eraseDups else names.eraseDups ++ [last] := by
  rw [List.eraseDups_append]
  by_cases before : last ∈ names <;> simp [List.removeAll, before, List.eraseDups_cons]

/-- The names of a run of declarations, each once, in the order in which they come first. -/
theorem names_ofList (l : List α) :
    (ofList l).toList.map Named.name = (l.map Named.name).eraseDups := by
  -- The last declaration is added if its name is not among those before.
  induction l using List.reverseRecOn with
  | nil => rfl
  | append_singleton l a ih =>
    have taken_iff : (ofList l).contains (Named.name a) = true ↔
        Named.name a ∈ l.map Named.name := by
      rw [contains_iff, ih, List.mem_eraseDups]
    rw [ofList_concat, List.map_append, List.map_singleton, eraseDups_concat]
    cases taken : (ofList l).contains (Named.name a) with
    | false =>
      have notBefore : Named.name a ∉ l.map Named.name := by
        rw [← taken_iff, taken]
        exact Bool.false_ne_true
      rw [insertNew_of_free taken, if_neg notBefore, ← ih]
      exact List.map_append
    | true =>
      rw [insertNew_of_taken taken, if_pos (taken_iff.mp taken), ih]

/-! ### Different names -/

/-- No two things go by the same name. -/
def Distinct (r : Registry α) : Prop := (r.toList.map Named.name).Nodup

theorem Distinct.insertNew (distinct : r.Distinct) (a : α) : (r.insertNew a).Distinct := by
  cases taken : r.contains (Named.name a) with
  | false =>
    have free : Named.name a ∉ r.toList.map Named.name := by
      rw [← contains_iff, taken]
      exact Bool.false_ne_true
    rw [insertNew_of_free taken, Distinct, toList, List.map_append, List.map_singleton,
      List.nodup_append_comm]
    exact List.nodup_cons.mpr ⟨free, distinct⟩
  | true => rwa [insertNew_of_taken taken]

theorem distinct_ofList (l : List α) : (ofList l).Distinct := by
  have distinct : ∀ r : Registry α, r.Distinct → (l.foldl insertNew r).Distinct := by
    induction l with
    | nil => exact fun r distinct => distinct
    | cons a l ih => exact fun r distinct => ih _ (distinct.insertNew a)
  exact distinct empty List.nodup_nil

/-- Where names are different, everything is found under its own. -/
theorem Distinct.get?_of_mem (distinct : r.Distinct) (member : a ∈ r.toList) :
    r.get? (Named.name a) = some a := by
  have found : (r.get? (Named.name a)).isSome := by
    rw [← contains_eq_isSome_get?, contains_iff]
    exact List.mem_map_of_mem member
  obtain ⟨b, holds⟩ := Option.isSome_iff_exists.mp found
  rw [holds, List.inj_on_of_nodup_map distinct (mem_of_get?_eq_some holds) member
    (name_of_get?_eq_some holds)]

/-- Where names are different, the entries are what is found under their names. -/
theorem Distinct.toList_eq (distinct : r.Distinct) :
    r.toList = (r.toList.map Named.name).filterMap r.get? := by
  have found : ∀ a ∈ r.toList, (r.get? ∘ Named.name) a = some a :=
    fun a member => distinct.get?_of_mem member
  rw [List.filterMap_map, List.filterMap_congr found, List.filterMap_some]

/-! ### Runs of declarations -/

/-- What remains of a run are the first things declared under each name, in the order in which the
names come first. -/
theorem toList_ofList (l : List α) :
    (ofList l).toList =
      (l.map Named.name).eraseDups.filterMap fun name => l.find? (Named.name · = name) := by
  rw [(distinct_ofList l).toList_eq, names_ofList]
  exact List.filterMap_congr fun name _ => get?_ofList l

theorem size_ofList (l : List α) : (ofList l).size = (l.map Named.name).toFinset.card := by
  have sameNames : (l.map Named.name).toFinset = ((ofList l).toList.map Named.name).toFinset := by
    ext name
    rw [names_ofList, List.mem_toFinset, List.mem_toFinset, List.mem_eraseDups]
  rw [sameNames, List.toFinset_card_of_nodup (distinct_ofList l), List.length_map]
  rfl

theorem contains_ofList (l : List α) :
    (ofList l).contains name = true ↔ name ∈ l.map Named.name := by
  rw [contains_iff, names_ofList, List.mem_eraseDups]

/-- A declaration is refused exactly if something has the name, and then its holder is given. -/
theorem insert_eq_error_iff {holder : α} :
    r.insert a = .error holder ↔ r.get? (Named.name a) = some holder := by
  unfold insert
  cases r.get? (Named.name a) <;> simp

/-- **The first declaration wins.** After a run of declarations, as of columns or of tables, a name
stands for the first thing declared under it, there are as many things as names, and they are listed
in the order in which their names were first declared. The next declaration is refused exactly if
its name was declared before; it is told the first thing declared under the name, and nothing
changes. Otherwise it is accepted. -/
theorem ofList_first (l : List α) :
    (∀ name, (ofList l).get? name = l.find? (Named.name · = name)) ∧
      (ofList l).size = (l.map Named.name).toFinset.card ∧
      (ofList l).toList =
        (l.map Named.name).eraseDups.filterMap (fun name => l.find? (Named.name · = name)) ∧
      (∀ a holder, (ofList l).insert a = .error holder ↔
        l.find? (Named.name · = Named.name a) = some holder) ∧
      (∀ a, Named.name a ∈ l.map Named.name → ofList (l ++ [a]) = ofList l) ∧
      ∀ a, Named.name a ∉ l.map Named.name → (ofList l).insert a = .ok (ofList (l ++ [a])) := by
  refine ⟨fun name => get?_ofList l, size_ofList l, toList_ofList l, fun a holder => ?_,
    fun a declared => ?_, fun a new => ?_⟩
  · rw [insert_eq_error_iff, get?_ofList]
  · rw [ofList_concat, insertNew_of_taken ((contains_ofList l).mpr declared)]
  · have free : (ofList l).contains (Named.name a) = false := by
      rwa [← contains_ofList, Bool.not_eq_true] at new
    rw [ofList_concat, insertNew_of_free free, insert_of_free free]

end Registry

end Stencil
