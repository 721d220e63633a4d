import Mathlib.Data.List.Basic
import Stencil.Proofs.Render.AsWritten
import Stencil.Proofs.Render.Data

/-!
# When rendering breaks off

Rendering ends with a text or in an orderly failure, with two exceptions: a value tag that is met
names an array or an object, which has no text, or partials include each other without end. Data has
no other values without a text, so nothing else in it makes rendering break off.

## Main results

* `Data.isWritable_iff`: what can be written of data
* `Rendered.exists_breaksOff_iff`: when rendering breaks off
-/

namespace Stencil

open Mustache

/-- Of the values that data is made of, those can be written that are not made of others. -/
theorem Data.isWritable_iff {data : Json} (formed : Data.IsFormed data) {found : Option Json}
    (inData : ∀ value ∈ found, data.Contains value) :
    IsWritable found ↔ ∀ value ∈ found, ¬ value.isStructure := by
  refine forall₂_congr fun value isFound => ?_
  rcases formed value (inData value isFound) with ⟨s, rfl⟩ | structured
  · exact ⟨fun _ => nofun, fun _ => .inr rfl⟩
  · cases value with
    | null | bool truth | number n | string s => cases structured
    | array items | object members =>
      exact ⟨fun writable => writable.elim nofun nofun, fun unstructured => absurd rfl unstructured⟩

/-- Data is not rendered exactly if a value tag that is met names an array or an object, or partials
nest too deep. -/
theorem Data.not_renderable_iff {data : Json} (formed : Data.IsFormed data)
    {partials : String → List Node} {depth : Nat} {nodes : List Node} :
    ¬ Renderable partials depth [data] nodes ↔
      (∃ stack path escaped value,
        Reaches partials [data] nodes stack (.value path escaped) ∧
          path.find? stack = some value ∧ value.isStructure) ∨
        NestsTo partials (depth + 1) [data] nodes := by
  rw [renderable_iff, Classical.not_and_iff_not_or_not, Classical.not_not]
  refine or_congr_left ?_
  simp only [Classical.not_forall]
  refine exists_congr fun stack => exists_congr fun path => exists_congr fun escaped => ?_
  have isWritable (reaches : Reaches partials [data] nodes stack (.value path escaped)) :=
    isWritable_iff formed fun value (found : path.find? stack = some value) =>
      reaches.contains_of_find? found
  constructor
  · rintro ⟨reaches, unwritable⟩
    simpa [isWritable reaches, reaches] using unwritable
  · rintro ⟨value, reaches, found, structured⟩
    exact ⟨reaches, fun writable => (isWritable reaches).mp writable value found structured⟩

/-- Of the failures to fill a template, those make the run break off in which the template can be
read. -/
theorem exists_renderText_breaksOff_iff (read : FileReader) (template : String) (data : Json) :
    (∃ failure, renderText read template data = .error failure ∧ failure.breaksOff) ↔
      ∃ t, Template.parse read (verbatimTemplate template) = .ok t ∧
        ¬ Renderable t.nodesOf Template.maxDepth [data] t.nodes := by
  unfold renderText
  cases Template.parse read (verbatimTemplate template) with
  | error fault =>
    constructor
    · rintro ⟨failure, isFailure, breaksOff⟩
      cases isFailure
      cases breaksOff
    · rintro ⟨t, parsed, -⟩
      cases parsed
  | ok t =>
    have breaksOff_iff : (∃ failure : RenderFailure,
        (t.render data).mapError .unwritable = .error failure ∧ failure.breaksOff) ↔
        ¬ ∃ text, t.render data = .ok text := by
      cases t.render data with
      | error fault =>
        refine iff_of_true ⟨_, rfl, rfl⟩ ?_
        rintro ⟨text, isText⟩
        cases isText
      | ok text =>
        refine iff_of_false ?_ (not_not_intro ⟨text, rfl⟩)
        rintro ⟨failure, isFailure, -⟩
        cases isFailure
    rw [Template.exists_render_eq_ok_iff] at breaksOff_iff
    refine breaksOff_iff.trans ⟨fun fails => ⟨t, rfl, fails⟩, ?_⟩
    rintro ⟨t', parsed, fails⟩
    obtain rfl := Except.ok.inj parsed
    exact fails

namespace Rendered

variable (read : FileReader) (file template : String) (members : List (String × Json))

/-- What comes of a template and an object: the text and the warnings, or the failure to fill the
template. -/
theorem ofData_object :
    ofData read file template (.object members) =
      (renderText read template (.object (Data.ofMembers file members).1)).map
        (⟨·, (Data.ofMembers file members).2⟩) := by
  simp only [ofData, Data.ofJson]
  cases renderText read template (.object (Data.ofMembers file members).1) <;> rfl

/-- **When rendering breaks off.** For an object, rendering a template that can be read breaks off
exactly if a value tag that is met names an array or an object, or partials nest deeper than they
may. In all other cases it ends with a text or with an orderly failure. -/
theorem exists_breaksOff_iff :
    (∃ failure, ofData read file template (.object members) = .error failure ∧ failure.breaksOff) ↔
      ∃ t, Template.parse read (verbatimTemplate template) = .ok t ∧
        ((∃ stack path escaped value,
            Reaches t.nodesOf [.object (Data.ofMembers file members).1] t.nodes stack
              (.value path escaped) ∧
            path.find? stack = some value ∧ value.isStructure) ∨
          NestsTo t.nodesOf (Template.maxDepth + 1) [.object (Data.ofMembers file members).1]
            t.nodes) := by
  have ofText :
      (∃ failure, ofData read file template (.object members) = .error failure ∧
          failure.breaksOff) ↔
        ∃ failure, renderText read template (.object (Data.ofMembers file members).1) =
          .error failure ∧ failure.breaksOff := by
    rw [ofData_object]
    cases renderText read template (.object (Data.ofMembers file members).1) <;>
      simp [Except.map]
  rw [ofText, exists_renderText_breaksOff_iff]
  exact exists_congr fun t =>
    and_congr_right fun _ => Data.not_renderable_iff (Data.isFormed_ofMembers file members)

/-- A value tag that names an object makes rendering break off. -/
theorem ofData_object_eq_error :
    ofData (fun _ => .error .missing) "data.json" "\x7b\x7bo\x7d\x7d"
        (.object [("o", .object [])]) = .error (.unwritable .notText) ∧
      (RenderFailure.unwritable .notText).breaksOff := by
  have parsed : Node.parse (verbatimTemplate "\x7b\x7bo\x7d\x7d") = .ok [.value ["o"] false] := by
    decide +kernel
  have failed (inclusion : Inclusion) :
      Node.renderAll inclusion "" [.object [("o", .object [])]] [.value ["o"] false] {} =
        .error .notText := rfl
  have isData : (Data.ofMembers "data.json" [("o", .object [])]).1 = [("o", .object [])] := rfl
  refine ⟨?_, rfl⟩
  rw [ofData_object, isData, renderText_eq_renderAsWritten,
    renderAsWritten_of_no_inclusions parsed rfl, Template.render, failed]
  rfl

end Rendered

end Stencil
