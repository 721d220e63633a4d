import Stencil.Proofs.Mustache.Fill

/-!
# Plain texts

HTML escaping leaves a text as it is exactly if none of its characters is special, and makes it
longer otherwise. So when two outputs differ only in what is escaped, they are the same exactly if
they are the same piece by piece.

## Main definitions

* `IsPlain`: a text without characters that are special in HTML
* `Output.EscapesTo`: two outputs that differ only in what is escaped

## Main results

* `escapeText_eq_iff`: which texts are left as they are
* `Output.EscapesTo.writeValue`: what is written for a value, escaped and as it is
-/

namespace Stencil.Mustache

open Stencil.Text

/-! ### Escaped texts -/

/-- A text none of whose characters is special in HTML. -/
def IsPlain (s : String) : Prop := ∀ c ∈ s.toList, escapeChar c = [c]

instance (s : String) : Decidable (IsPlain s) :=
  List.decidableBAll (fun c => escapeChar c = [c]) s.toList

theorem escapeChar_eq_or_lt (c : Char) : escapeChar c = [c] ∨ 1 < (escapeChar c).length := by
  unfold escapeChar
  split
  all_goals first | exact .inl rfl | exact .inr (by decide)

theorem length_le_length_flatMap_escapeChar (s : List Char) :
    s.length ≤ (s.flatMap escapeChar).length := by
  induction s with
  | nil => exact Nat.le_refl 0
  | cons c s ih =>
    have here : 1 ≤ (escapeChar c).length := by
      rcases escapeChar_eq_or_lt c with same | longer
      · rw [same]
        exact Nat.le_refl 1
      · exact Nat.le_of_lt longer
    rw [List.flatMap_cons, List.length_append, List.length_cons]
    omega

theorem flatMap_escapeChar_eq_iff (s : List Char) :
    s.flatMap escapeChar = s ↔ ∀ c ∈ s, escapeChar c = [c] := by
  induction s with
  | nil => exact ⟨fun _ => List.forall_mem_nil _, fun _ => rfl⟩
  | cons c s ih =>
    rw [List.flatMap_cons, List.forall_mem_cons, ← ih]
    constructor
    · intro same
      rcases escapeChar_eq_or_lt c with isSame | longer
      · rw [isSame] at same
        exact ⟨isSame, List.cons_inj_right c |>.mp same⟩
      · have lengths := congrArg List.length same
        have others := length_le_length_flatMap_escapeChar s
        rw [List.length_append, List.length_cons] at lengths
        omega
    · rintro ⟨first, others⟩
      rw [first, others]
      rfl

theorem length_le_length_escapeText (s : String) : s.length ≤ (escapeText s).length := by
  rw [escapeText, String.length_ofList, ← String.length_toList]
  exact length_le_length_flatMap_escapeChar s.toList

/-- Escaping leaves a text as it is exactly if the text is plain. -/
theorem escapeText_eq_iff (s : String) : escapeText s = s ↔ IsPlain s := by
  rw [IsPlain, ← flatMap_escapeChar_eq_iff, escapeText]
  constructor
  · intro same
    have isList := congrArg String.toList same
    rwa [String.toList_ofList] at isList
  · intro same
    rw [same, String.ofList_toList]

namespace IsPlain

variable {s other : String}

theorem empty : IsPlain "" := List.forall_mem_nil _

theorem append_iff : IsPlain (s ++ other) ↔ IsPlain s ∧ IsPlain other := by
  rw [IsPlain, String.toList_append, List.forall_mem_append]
  rfl

/-- Blanks are not special. -/
theorem of_isBlank (blank : ∀ c ∈ s.toList, isBlank c = true) : IsPlain s := by
  intro c isMember
  have isBlank := blank c isMember
  unfold escapeChar
  split
  all_goals first | rfl | exact absurd isBlank (by decide)

theorem ofList_iff {s : List Char} : IsPlain (String.ofList s) ↔ ∀ c ∈ s, escapeChar c = [c] := by
  rw [IsPlain, String.toList_ofList]

end IsPlain

/-! ### Numbers -/

section Numbers

variable (layout : Decimal.Layout)

theorem escapeChar_of_isDigit {c : Char} (isDigit : c.isDigit = true) : escapeChar c = [c] := by
  unfold escapeChar
  split
  all_goals first | rfl | exact absurd isDigit (by decide)

theorem escapeChar_of_mem_toDigits (n : Nat) : ∀ c ∈ Nat.toDigits 10 n, escapeChar c = [c] := by
  intro c isMember
  exact escapeChar_of_isDigit (Nat.isDigit_of_mem_toDigits (by decide) (by decide) isMember)

theorem escapeChar_of_mem_positional {digits : List Char}
    (plain : ∀ c ∈ digits, escapeChar c = [c]) (exponent : Int) :
    ∀ c ∈ layout.positional digits exponent, escapeChar c = [c] := by
  have zeros (n : Nat) : ∀ c ∈ List.replicate n '0', escapeChar c = [c] := by
    intro c isMember
    rw [List.eq_of_mem_replicate isMember]
    rfl
  simp only [Decimal.Layout.positional]
  split
  · simp only [List.forall_mem_append]
    refine ⟨⟨plain, zeros _⟩, ?_⟩
    split <;> simp [escapeChar]
  · split
    · rw [List.forall_mem_append, List.forall_mem_cons]
      exact ⟨fun c isMember => plain c (List.mem_of_mem_take isMember), rfl,
        fun c isMember => plain c (List.mem_of_mem_drop isMember)⟩
    · simp only [List.cons_append, List.forall_mem_cons, List.forall_mem_append]
      exact ⟨rfl, rfl, zeros _, plain⟩

theorem escapeChar_of_mem_scientific {digits : List Char}
    (plain : ∀ c ∈ digits, escapeChar c = [c]) (leading : Int) :
    ∀ c ∈ Decimal.Layout.scientific digits leading, escapeChar c = [c] := by
  have fraction : ∀ c ∈ digits.drop 1, escapeChar c = [c] :=
    fun c isMember => plain c (List.mem_of_mem_drop isMember)
  simp only [Decimal.Layout.scientific, List.forall_mem_append, List.forall_mem_cons]
  refine ⟨⟨fun c isMember => plain c (List.mem_of_mem_take isMember), ?_⟩, rfl, ?_,
    escapeChar_of_mem_toDigits _⟩
  · split
    · exact List.forall_mem_nil _
    · exact List.forall_mem_cons.mpr ⟨rfl, fraction⟩
  · split <;> rfl

/-- Numbers are plain: there are only digits, points, signs and the letter of an exponent in
them. -/
theorem IsPlain.number_text (n : Json.Number) : IsPlain (n.text layout) := by
  cases n with
  | integer value =>
    have natural (n : Nat) : IsPlain n.repr := by
      rw [Nat.repr_eq_ofList_toDigits, IsPlain.ofList_iff]
      exact escapeChar_of_mem_toDigits n
    rw [Json.Number.text, Int.toString_eq_repr, Int.repr_eq_if]
    split
    · exact natural _
    · exact IsPlain.append_iff.mpr ⟨by decide, natural _⟩
  | float value =>
    have ofDecimal (d : Decimal) : ∀ c ∈ layout.ofDecimal d, escapeChar c = [c] := by
      simp only [Decimal.Layout.ofDecimal]
      split
      · exact escapeChar_of_mem_positional layout (escapeChar_of_mem_toDigits _) _
      · split
        · exact escapeChar_of_mem_positional layout (escapeChar_of_mem_toDigits _) _
        · exact escapeChar_of_mem_scientific (escapeChar_of_mem_toDigits _) _
    rw [Json.Number.text, Decimal.Layout.text, IsPlain.ofList_iff, List.forall_mem_append]
    constructor
    · split <;> simp [escapeChar]
    · split
      · exact escapeChar_of_mem_positional layout (by simp [escapeChar]) 0
      · exact ofDecimal _

end Numbers

/-! ### Outputs that differ in what is escaped -/

namespace Output

variable (before indent s : String) (out : Output)

/-- What is written so far, after some other text. -/
def prepend : Output := { out with text := before ++ out.text }

theorem eq_prepend : out = prepend out.text ⟨"", out.startsLine⟩ := by
  rw [prepend, String.append_empty]

theorem write_prepend : (out.prepend before).write s = (out.write s).prepend before := by
  simp only [prepend, write, String.append_assoc]

theorem writeIndent_prepend :
    (out.prepend before).writeIndent indent = (out.writeIndent indent).prepend before := by
  unfold writeIndent
  split
  · rename_i starts
    rw [if_pos (show out.startsLine from starts)]
    simp only [prepend, String.append_assoc]
  · rename_i continues
    rw [if_neg (show ¬ out.startsLine from continues)]

theorem writeLine_prepend (line : List Char) :
    (out.prepend before).writeLine indent line = (out.writeLine indent line).prepend before := by
  unfold writeLine
  split
  · exact write_prepend ..
  · rw [writeIndent_prepend, write_prepend]

theorem writeText_prepend :
    (out.prepend before).writeText indent s = (out.writeText indent s).prepend before := by
  unfold writeText
  split
  · exact write_prepend ..
  · induction textLines s.toList generalizing out with
    | nil => rfl
    | cons line lines ih => rw [List.foldl_cons, writeLine_prepend, ih, List.foldl_cons]

/-- What is written is escaped. -/
def escapeIf (escaped : Bool) : Output :=
  { out with text := if escaped then escapeText out.text else out.text }

theorem isPlain_writeIndent {indent : String} (plain : IsPlain indent) (startsLine : Bool) :
    IsPlain (writeIndent ⟨"", startsLine⟩ indent).text := by
  cases startsLine with
  | false => exact IsPlain.empty
  | true => exact IsPlain.append_iff.mpr ⟨IsPlain.empty, plain⟩

/-- Two outputs that are the same but for what is escaped in the second one: they are at the same
place in a line, and the texts are the same exactly if `same` holds. -/
structure EscapesTo (same : Prop) (plain out : Output) : Prop where
  startsLine_eq : plain.startsLine = out.startsLine
  length_le : plain.text.length ≤ out.text.length
  text_eq_iff : plain.text = out.text ↔ same

namespace EscapesTo

variable {before indent s out} {same more : Prop} {plain piece escapedPiece : Output}

theorem refl (out : Output) : EscapesTo True out out :=
  ⟨rfl, Nat.le_refl _, iff_of_true rfl trivial⟩

/-- Pieces that are added in the same way make outputs the same if they are and were the same. -/
theorem prepend (escapes : EscapesTo same plain out) (added : EscapesTo more piece escapedPiece) :
    EscapesTo (same ∧ more) (piece.prepend plain.text) (escapedPiece.prepend out.text) where
  startsLine_eq := added.startsLine_eq
  length_le := by
    have := escapes.length_le
    have := added.length_le
    simp only [Output.prepend, String.length_append]
    omega
  text_eq_iff := by
    rw [← escapes.text_eq_iff, ← added.text_eq_iff]
    constructor
    · -- No part is longer than its counterpart, so if the whole texts are equal, the parts are.
      intro isSame
      have lists := congrArg String.toList isSame
      have lengths := congrArg String.length isSame
      have := escapes.length_le
      have := added.length_le
      simp only [Output.prepend, String.toList_append, String.length_append] at lists lengths
      have isSplit := List.append_inj lists (by simp only [String.length_toList]; omega)
      exact ⟨String.toList_inj.mp isSplit.1, String.toList_inj.mp isSplit.2⟩
    · rintro ⟨first, second⟩
      simp only [Output.prepend, first, second]

/-- The same text is written to both. -/
theorem writeText (escapes : EscapesTo same plain out) :
    EscapesTo same (plain.writeText indent s) (out.writeText indent s) := by
  have added := EscapesTo.refl (Output.writeText ⟨"", out.startsLine⟩ indent s)
  have written := escapes.prepend added
  rw [← writeText_prepend, ← writeText_prepend, ← eq_prepend, ← escapes.startsLine_eq,
    ← eq_prepend, and_true] at written
  exact written

/-- A piece that is perhaps escaped is the same as when it is less escaped, if it is plain. -/
theorem escapeIf {escaped fewer : Bool} (lessens : fewer → escaped) (piece : Output) :
    EscapesTo (fewer = escaped ∨ IsPlain piece.text) (piece.escapeIf fewer)
      (piece.escapeIf escaped) := by
  cases fewer with
  | true =>
    rw [lessens rfl, eq_true (Or.inl rfl)]
    exact .refl _
  | false =>
    cases escaped with
    | false =>
      rw [eq_true (Or.inl rfl)]
      exact .refl _
    | true =>
      refine ⟨rfl, length_le_length_escapeText piece.text, ?_⟩
      rw [or_iff_right Bool.false_ne_true, ← escapeText_eq_iff]
      exact eq_comm

/-- A value that is escaped in one output and not in the other leaves them the same if its text is
plain. -/
theorem writeValue {escaped fewer : Bool} (escapes : EscapesTo same plain out)
    (lessens : fewer → escaped) (plainIndent : IsPlain indent) (found : Option Json) :
    Corresponds (EscapesTo (same ∧ (fewer = escaped ∨ IsPlain (textOf found))))
      (plain.writeValue indent fewer found) (out.writeValue indent escaped found) := by
  have startsLine_eq := escapes.startsLine_eq
  cases found with
  | none =>
    have plainText : IsPlain (textOf none) := IsPlain.empty
    rw [eq_true plainText, or_true, and_true]
    exact .ok escapes
  | some value =>
    -- What is written for the value depends on the output only by whether a line begins there.
    have ofPiece (piece : Bool → Output)
        (isPlain : IsPlain (piece out.startsLine).text ↔ IsPlain (textOf (some value))) :
        EscapesTo (same ∧ (fewer = escaped ∨ IsPlain (textOf (some value))))
          (((piece plain.startsLine).escapeIf fewer).prepend plain.text)
          (((piece out.startsLine).escapeIf escaped).prepend out.text) := by
      rw [startsLine_eq, ← isPlain]
      exact escapes.prepend (escapeIf lessens _)
    have isPlainIndent := isPlain_writeIndent plainIndent out.startsLine
    cases value with
    | null =>
      exact .ok (ofPiece (fun startsLine => writeIndent ⟨"", startsLine⟩ indent)
        (iff_of_true isPlainIndent IsPlain.empty))
    | number n | string s =>
      exact .ok (ofPiece (fun startsLine => (writeIndent ⟨"", startsLine⟩ indent).write _)
        (IsPlain.append_iff.trans (and_iff_right isPlainIndent)))
    | bool truth | array items | object members => exact .error _

end EscapesTo

end Output

end Stencil.Mustache
