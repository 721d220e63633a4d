import Stencil.Proofs.Mustache.Outcome

/-!
# Reading partials

Partials are read until all that are mentioned are known. Those that are known then have the nodes
of their files, and whatever they mention is known as well, so every partial that is met in
rendering is the one in its file.

## Main definitions

* `Template.Covered`: a partial that is known or still to be read
* `Template.Known`: the partials read so far, and those that are mentioned but not read yet

## Main results

* `Template.parse_eq_ok_iff`: reading a template is reading its nodes, and then its partials
* `Template.known_of_parse`: no partial is left to be read
* `Template.parsePartial_of_reaches`: a partial that is met has the nodes of its file
-/

namespace Stencil.Mustache

namespace Template

variable {read : FileReader} {known all : List (String × List Node)} {pending names : List String}
  {name other : String} {nodes others : List Node}

theorem lookup_cons_eq_some (found : ((name, nodes) :: known).lookup other = some others) :
    (other = name ∧ others = nodes) ∨ known.lookup other = some others := by
  rw [List.lookup_cons] at found
  split at found
  · rename_i same
    exact .inl ⟨beq_iff_eq.mp same, (Option.some.inj found).symm⟩
  · exact .inr found

/-- A partial that is known or still to be read. -/
def Covered (known : List (String × List Node)) (pending : List String) (name : String) : Prop :=
  (known.lookup name).isSome ∨ name ∈ pending

namespace Covered

/-- A partial that is known does not have to be read. -/
theorem drop (isKnown : (known.lookup name).isSome)
    (covered : Covered known (name :: names) other) : Covered known names other := by
  rcases covered with earlier | pending
  · exact .inl earlier
  · rcases List.mem_cons.mp pending with rfl | later
    · exact .inl isKnown
    · exact .inr later

/-- A partial that is read is known. -/
theorem add (covered : Covered known (name :: names) other) (nodes : List Node)
    (mentioned : List String) : Covered ((name, nodes) :: known) (mentioned ++ names) other := by
  by_cases same : other = name
  · exact .inl (by rw [same, List.lookup_cons_self]; rfl)
  · rcases covered with earlier | pending
    · refine .inl ?_
      rw [List.lookup_cons, beq_eq_false_iff_ne.mpr same]
      exact earlier
    · exact .inr (List.mem_append_right _ (List.mem_of_ne_of_mem same pending))

end Covered

/-- The partials that are known have the nodes of their files, and what they mention is known too or
still to be read. -/
structure Known (read : FileReader) (known : List (String × List Node)) (pending : List String) :
    Prop where
  isRead {name : String} {nodes : List Node} (found : known.lookup name = some nodes) :
    parsePartial read name = .ok nodes
  isClosed {name : String} {nodes : List Node} (found : known.lookup name = some nodes) :
    ∀ other ∈ Node.allInclusions nodes, Covered known pending other

namespace Known

theorem nil (read : FileReader) (pending : List String) : Known read [] pending := ⟨nofun, nofun⟩

theorem drop (state : Known read known (name :: names)) (isKnown : (known.lookup name).isSome) :
    Known read known names where
  isRead := state.isRead
  isClosed found other mentioned := (state.isClosed found other mentioned).drop isKnown

theorem add (state : Known read known (name :: names))
    (isRead : parsePartial read name = .ok nodes) :
    Known read ((name, nodes) :: known) (Node.allInclusions nodes ++ names) where
  isRead found := by
    rcases lookup_cons_eq_some found with ⟨rfl, rfl⟩ | found
    · exact isRead
    · exact state.isRead found
  isClosed found other mentioned := by
    rcases lookup_cons_eq_some found with ⟨rfl, rfl⟩ | found
    · exact .inr (List.mem_append_left _ mentioned)
    · exact (state.isClosed found other mentioned).add ..

end Known

theorem parsePartials_nil (limit : Nat) (known : List (String × List Node)) :
    parsePartials read limit known [] = .ok known := by rw [parsePartials]

/-- A partial that is not known is read, and then those that it mentions. -/
theorem parsePartials_cons (limit : Nat) (names : List String)
    (unknown : known.lookup name = none) (isRead : parsePartial read name = .ok nodes) :
    parsePartials read (limit + 1) known (name :: names) =
      parsePartials read limit ((name, nodes) :: known) (Node.allInclusions nodes ++ names) := by
  rw [parsePartials, unknown, isRead]
  rfl

/-- Reading goes on until none is left to be read: all that were known or to be read are known. -/
theorem known_of_parsePartials {limit : Nat} (state : Known read known names)
    (parsed : parsePartials read limit known names = .ok all) :
    Known read all [] ∧ ∀ name, Covered known names name → (all.lookup name).isSome := by
  fun_induction parsePartials read limit known names with
  | case1 limit known =>
    obtain rfl := Except.ok.inj parsed
    exact ⟨state, fun name covered => covered.resolve_right List.not_mem_nil⟩
  | case2 limit known name names isKnown ih =>
    obtain ⟨final, covers⟩ := ih (state.drop isKnown) parsed
    exact ⟨final, fun other covered => covers other (covered.drop isKnown)⟩
  | case3 known name names unknown => cases parsed
  | case4 known name names unknown limit fault failed => cases parsed
  | case5 known name names unknown limit nodes isRead ih =>
    obtain ⟨final, covers⟩ := ih (state.add isRead) parsed
    exact ⟨final, fun other covered => covers other (covered.add ..)⟩

/-- Reading a template is reading its nodes, and then the partials that they mention. -/
theorem parse_eq_ok_iff {text : String} {t : Template} :
    parse read text = .ok t ↔
      Node.parse text = .ok t.nodes ∧
        parsePartials read maxPartials [] (Node.allInclusions t.nodes) = .ok t.partials := by
  simp only [parse, bind_eq_ok_iff]
  constructor
  · rintro ⟨nodes, isParsed, partials, isRead, ⟨⟩⟩
    exact ⟨isParsed, isRead⟩
  · rintro ⟨isParsed, isRead⟩
    exact ⟨t.nodes, isParsed, t.partials, isRead, rfl⟩

/-- A template that mentions no partials is its nodes. -/
theorem parse_of_no_inclusions (read : FileReader) {text : String} {nodes : List Node}
    (parsed : Node.parse text = .ok nodes) (noInclusions : Node.allInclusions nodes = []) :
    parse read text = .ok ⟨nodes, []⟩ := by
  refine parse_eq_ok_iff.mpr ⟨parsed, ?_⟩
  rw [noInclusions]
  exact parsePartials_nil maxPartials []

end Template

/-- If all partials that are mentioned are known, then also the ones that are met. -/
theorem Reaches.isSome_lookup {t : Template} {read : FileReader}
    (state : Template.Known read t.partials []) {stack stack' : List Json} {nodes : List Node}
    {name indent : String}
    (reaches : Reaches t.nodesOf stack nodes stack' (.inclusion name indent))
    (mentioned : ∀ other ∈ Node.allInclusions nodes, (t.partials.lookup other).isSome) :
    (t.partials.lookup name).isSome := by
  generalize isInclusion : Node.inclusion name indent = node at reaches
  induction reaches with
  | here =>
    subst isInclusion
    exact mentioned name (List.mem_append_left _ List.mem_cons_self)
  | later _ ih =>
    exact ih (fun other found => mentioned other (List.mem_append_right _ found)) isInclusion
  | inside _ _ ih =>
    exact ih (fun other found => mentioned other (List.mem_append_left _ found)) isInclusion
  | @included _ _ around _ _ _ _ ih =>
    -- The partial gone into is known itself, and hence what it mentions.
    refine ih (fun other found => ?_) isInclusion
    have isKnown := mentioned around (List.mem_append_left _ List.mem_cons_self)
    obtain ⟨inner, isInner⟩ := Option.isSome_iff_exists.mp isKnown
    rw [Template.nodesOf, isInner] at found
    exact (state.isClosed isInner other found).resolve_right List.not_mem_nil

namespace Template

variable {read : FileReader} {text : String} {t : Template}

/-- After a template is read, none of its partials is left to be read. -/
theorem known_of_parse (parsed : parse read text = .ok t) :
    Known read t.partials [] ∧
      ∀ name ∈ Node.allInclusions t.nodes, (t.partials.lookup name).isSome := by
  obtain ⟨-, isRead⟩ := parse_eq_ok_iff.mp parsed
  obtain ⟨state, covers⟩ := known_of_parsePartials (.nil read _) isRead
  exact ⟨state, fun name mentioned => covers name (.inr mentioned)⟩

/-- A partial that is met in rendering a template has the nodes of its file. -/
theorem parsePartial_of_reaches (parsed : parse read text = .ok t) {stack stack' : List Json}
    {name indent : String}
    (reaches : Reaches t.nodesOf stack t.nodes stack' (.inclusion name indent)) :
    parsePartial read name = .ok (t.nodesOf name) := by
  obtain ⟨state, mentioned⟩ := known_of_parse parsed
  obtain ⟨nodes, found⟩ := Option.isSome_iff_exists.mp (reaches.isSome_lookup state mentioned)
  rw [nodesOf, found]
  exact state.isRead found

end Template

end Stencil.Mustache
