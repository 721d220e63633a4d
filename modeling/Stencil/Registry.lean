/-!
# Registries: the first declaration wins

Columns, tables and the like are declared under a name, one after the other. A registry keeps what
was declared in the order of declaration, and a name that is taken stays with its first holder:
a later declaration is refused and told who holds the name.

## Main definitions

* `Named`: things that go by a name
* `Registry.insert`: declares a thing, unless its name is taken
* `Registry.get?`: the thing declared under a name
* `Registry.ofList`: what remains of a run of declarations
-/

namespace Stencil

/-- Things that go by a name. -/
class Named (α : Type) where
  name : α → String

/-- Named things in the order of their declaration. -/
structure Registry (α : Type) where
  entries : List α
deriving Repr, DecidableEq

namespace Registry

variable {α : Type} [Named α]

/-- The registry in which nothing is declared. -/
def empty : Registry α := ⟨[]⟩

/-- What is declared, in the order of declaration. -/
def toList (r : Registry α) : List α := r.entries

/-- The number of things declared. -/
def size (r : Registry α) : Nat := r.entries.length

/-- Whether nothing is declared. -/
def isEmpty (r : Registry α) : Bool := r.entries.isEmpty

/-- The thing declared under a name. -/
def get? (r : Registry α) (name : String) : Option α :=
  r.entries.find? (Named.name · = name)

/-- Whether a name is taken. -/
def contains (r : Registry α) (name : String) : Bool :=
  r.entries.any (Named.name · = name)

/-- Declares a thing; if its name is taken, gives the holder of the name instead. -/
def insert (r : Registry α) (a : α) : Except α (Registry α) :=
  match r.get? (Named.name a) with
  | some holder => .error holder
  | none => .ok ⟨r.entries ++ [a]⟩

/-- Declares a thing, unless its name is taken. -/
def insertNew (r : Registry α) (a : α) : Registry α :=
  match r.insert a with
  | .ok extended => extended
  | .error _ => r

/-- What remains of a run of declarations. -/
def ofList (l : List α) : Registry α := l.foldl insertNew empty

theorem contains_eq_isSome_get? (r : Registry α) (name : String) :
    r.contains name = (r.get? name).isSome := by
  rw [Bool.eq_iff_iff]
  simp [contains, get?]

theorem mem_of_get?_eq_some {r : Registry α} {name : String} {a : α}
    (found : r.get? name = some a) :
    a ∈ r.toList :=
  List.mem_of_find?_eq_some found

theorem contains_iff {r : Registry α} {name : String} :
    r.contains name = true ↔ name ∈ r.toList.map Named.name := by
  simp [contains, toList]

/-- A declaration is accepted if its name is free, and comes last. -/
theorem insert_of_free {r : Registry α} {a : α} (free : r.contains (Named.name a) = false) :
    r.insert a = .ok ⟨r.toList ++ [a]⟩ := by
  rw [contains_eq_isSome_get?, Option.isSome_eq_false_iff, Option.isNone_iff_eq_none] at free
  simp only [insert, free, toList]

/-- A declaration is refused if its name is taken. -/
theorem insert_of_taken {r : Registry α} {a : α} (taken : r.contains (Named.name a) = true) :
    ∃ holder, r.get? (Named.name a) = some holder ∧ r.insert a = .error holder := by
  rw [contains_eq_isSome_get?, Option.isSome_iff_exists] at taken
  obtain ⟨holder, found⟩ := taken
  exact ⟨holder, found, by simp only [insert, found]⟩

end Registry

end Stencil
