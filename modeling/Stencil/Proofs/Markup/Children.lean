import Stencil.Markup.Element

/-!
# Child elements

What is looked for among the children of an element is looked for by name. This file says what is
found if the children are put together from several, and if one of them gets other contents.

## Main results

* `Element.elements_append_cons`, `Element.elements_map_toNode`: the elements among children
* `Element.element?_append_cons`: the first child element of a name
* `Element.map_element?_append_cons`: what does not change if one child changes
-/

namespace Stencil.Markup.Element

variable {e root : Element} {name : String} {tag : Tag}
  {before after children children' : List Node}

theorem elements_map_toNode (tag : Tag) (es : List Element) :
    elements ⟨tag, es.map toNode⟩ = es := by
  simp [elements, List.filterMap_map, Function.comp_def, toNode, Node.element?]

theorem name_of_element? {child : Element} (found : root.element? name = some child) :
    child.name = name := by
  have isName := List.find?_some found
  exact of_decide_eq_true isName

/-- All elements of one name have that name. -/
theorem name_of_mem_elementsNamed {part : Element} (member : part ∈ e.elementsNamed name) :
    part.name = name := of_decide_eq_true (List.mem_filter.mp member).2

/-- Elements of other names are none of that name. -/
theorem filter_elementsNamed (other : String) :
    (e.elementsNamed name).filter (·.name = other) =
      if name = other then e.elementsNamed name else [] := by
  by_cases same : name = other
  · rw [if_pos same, List.filter_eq_self]
    exact fun part member => decide_eq_true ((name_of_mem_elementsNamed member).trans same)
  · rw [if_neg same, List.filter_eq_nil_iff]
    intro part member isOther
    exact same ((name_of_mem_elementsNamed member).symm.trans (of_decide_eq_true isOther))

/-- The elements among the children, those after a given one and those before it. -/
theorem elements_append_cons (node : Node) :
    elements ⟨tag, before ++ node :: after⟩ =
      elements ⟨tag, before⟩ ++ (node.element?.toList ++ elements ⟨tag, after⟩) := by
  cases node <;> simp [elements, Node.element?, List.filterMap_cons]

theorem elements_append :
    elements ⟨tag, before ++ after⟩ = elements ⟨tag, before⟩ ++ elements ⟨tag, after⟩ := by
  simp [elements]

/-- The first of its name is the first of those before an element, or that element, or the first of
those after it. -/
theorem element?_append_cons (child : Tag) :
    element? ⟨tag, before ++ .element child children :: after⟩ name =
      (element? ⟨tag, before⟩ name).or
        (if child.name = name then some ⟨child, children⟩ else element? ⟨tag, after⟩ name) := by
  have isName : (⟨child, children⟩ : Element).name = child.name := rfl
  rw [element?, elements_append_cons, List.find?_append, Node.element?, Option.toList_some,
    List.singleton_append, List.find?_cons, isName]
  by_cases same : child.name = name <;> simp [same, element?]

/-- What is the same of two elements is the same of the first of a name, whichever of the two stands
among the children. -/
theorem map_element?_append_cons {α : Type} {f : Element → α} {child : Tag}
    (same : f ⟨child, children⟩ = f ⟨child, children'⟩) :
    (element? ⟨tag, before ++ .element child children :: after⟩ name).map f =
      (element? ⟨tag, before ++ .element child children' :: after⟩ name).map f := by
  rw [element?_append_cons, element?_append_cons, Option.map_or, Option.map_or]
  by_cases isIt : child.name = name <;> simp [isIt, same]

theorem element?_append_cons_of_ne {child : Tag} (isOther : child.name ≠ name) :
    element? ⟨tag, before ++ .element child children :: after⟩ name =
      element? ⟨tag, before ++ .element child children' :: after⟩ name := by
  rw [element?_append_cons, element?_append_cons, if_neg isOther, if_neg isOther]

/-- After an element of a name, others of that name are not the first. -/
theorem element?_append_cons_of_isSome {child : Tag}
    (earlier : (element? ⟨tag, before⟩ name).isSome) :
    element? ⟨tag, before ++ .element child children :: after⟩ name =
      element? ⟨tag, before⟩ name := by
  obtain ⟨first, found⟩ := Option.isSome_iff_exists.mp earlier
  rw [element?_append_cons, found, Option.some_or]

end Stencil.Markup.Element
