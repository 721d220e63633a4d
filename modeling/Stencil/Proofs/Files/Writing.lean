import Stencil.Proofs.Files.Target

/-!
# Writing a text

A path that leads to no file is refused before anything is touched. Otherwise the file is opened,
and it holds the whole text afterwards, or only a beginning of it if there is not room for more.
What it held before is lost in both cases. All other files hold what they held, and since neither
the directories nor the room depend on what files hold, what could be written to other paths still
can be.

## Main definitions

* `FileContent.IsBeginningOf`: what is in a file that did not take all of a text
* `FileTree.Takes`: all of a text can be written to a path
* `FileTree.BreaksOff`: a file can be opened but does not take all of a text

## Main results

* `FileTree.write_cases`: the ways in which writing goes
* `FileTree.takes_write_iff`, `FileTree.target_write_eq_ok_iff`: writing does not decide what else
  can be written
* `FileTree.contents_write_of_breaksOff`, `FileTree.file?_write`: what writing leaves in files
-/

namespace Stencil

namespace FileContent

theorem toBytes_ofBytes (bs : List UInt8) : (ofBytes bs).toBytes = bs := by
  unfold ofBytes
  split
  · rename_i value isText
    unfold String.fromUTF8? at isText
    split_ifs at isText with valid
    cases isText
    rfl
  · rfl

theorem length_toBytes_text (value : String) : (text value).toBytes.length = value.utf8ByteSize :=
  rfl

/-- The first bytes of a text, but not all of them. -/
def IsBeginningOf (content : FileContent) (value : String) : Prop :=
  ∃ rest ≠ [], content.toBytes ++ rest = (text value).toBytes

theorem isBeginningOf_beginning {value : String} {count : Nat}
    (partly : count < value.utf8ByteSize) : (beginning value count).IsBeginningOf value := by
  refine ⟨(text value).toBytes.drop count, ?_, ?_⟩
  · rw [Ne, List.drop_eq_nil_iff, length_toBytes_text]
    omega
  · rw [beginning, toBytes_ofBytes, List.take_append_drop]

end FileContent

namespace FileTree

variable {t : FileTree} {l m : Location} {content : FileContent} {path other text value : String}

/-- All of a text can be written to a path. -/
def Takes (t : FileTree) (path text : String) : Prop := (t.write path text).2 = none

/-- The file at a path can be opened for writing, but does not take all of a text. -/
def BreaksOff (t : FileTree) (path text : String) : Prop :=
  (∃ l, t.target path = .ok l) ∧ ¬ t.Takes path text

/-- The ways in which writing goes: the path leads to no file, or the file takes the text, or it
takes a beginning of it. -/
theorem write_cases (t : FileTree) (path text : String) :
    (∃ fault, t.target path = .error fault ∧ t.write path text = (t, some fault)) ∨
      (∃ l, t.target path = .ok l ∧ t.write path text = (t.put l (.text text), none)) ∨
      ∃ l content fault, t.target path = .ok l ∧ content.IsBeginningOf text ∧
        t.write path text = (t.put l content, some fault) := by
  unfold write
  cases leads : t.target path with
  | error fault => exact .inl ⟨fault, rfl, rfl⟩
  | ok l =>
    dsimp only
    cases exceeds : t.exceeded? l text with
    | none => exact .inr (.inl ⟨l, rfl, rfl⟩)
    | some bound =>
      have partly : bound.room < text.utf8ByteSize := by
        simpa using (Option.filter_eq_some_iff.mp exceeds).2
      exact .inr (.inr ⟨l, _, _, rfl, FileContent.isBeginningOf_beginning partly, rfl⟩)

theorem takes_iff : t.Takes path text ↔ ∃ l, t.target path = .ok l ∧ t.exceeded? l text = none := by
  unfold Takes write
  cases t.target path with
  | error fault => simp
  | ok l => cases exceeds : t.exceeded? l text <;> simp [exceeds]

theorem Takes.write_eq (takes : t.Takes path text) (leads : t.target path = .ok l) :
    t.write path text = (t.put l (.text text), none) := by
  obtain ⟨m, leads', fits⟩ := takes_iff.mp takes
  obtain rfl := Except.ok.inj (leads'.symm.trans leads)
  simp only [write, leads, fits]

/-- A text that cannot be written to a path breaks off there, or the path leads to no file. -/
theorem breaksOff_or_of_not_takes (fails : ¬ t.Takes path text) :
    t.BreaksOff path text ∨ ∀ l, t.target path ≠ .ok l := by
  by_cases leads : ∃ l, t.target path = .ok l
  · exact .inl ⟨leads, fails⟩
  · exact .inr (not_exists.mp leads)

/-- Writing changes nothing, or what is held by the one file to which the path leads. -/
theorem fst_write_eq_or (t : FileTree) (path text : String) :
    (t.write path text).1 = t ∨
      ∃ l content, t.target path = .ok l ∧ (t.write path text).1 = t.put l content := by
  rcases t.write_cases path text with ⟨_, -, ends⟩ | ⟨l, leads, ends⟩ | ⟨l, _, _, leads, -, ends⟩
  · exact .inl (by rw [ends])
  · exact .inr ⟨l, _, leads, by rw [ends]⟩
  · exact .inr ⟨l, _, leads, by rw [ends]⟩

/-! ### What else can be written -/

theorem takes_put_iff : (t.put l content).Takes path text ↔ t.Takes path text := by
  have sameRoom (m : Location) : (t.put l content).exceeded? m text = t.exceeded? m text := rfl
  simp only [takes_iff, target_put_eq_ok_iff, sameRoom]

theorem takes_write_iff : (t.write path text).1.Takes other value ↔ t.Takes other value := by
  rcases t.fst_write_eq_or path text with ends | ⟨_, _, -, ends⟩
  · rw [ends]
  · rw [ends, takes_put_iff]

theorem target_write_eq_ok_iff :
    (t.write path text).1.target other = .ok l ↔ t.target other = .ok l := by
  rcases t.fst_write_eq_or path text with ends | ⟨_, _, -, ends⟩
  · rw [ends]
  · rw [ends, target_put_eq_ok_iff]

/-! ### What writing leaves in files -/

/-- Other files hold what they held. -/
theorem file?_write (elsewhere : t.target path ≠ .ok l) :
    (t.write path text).1.file? l = t.file? l := by
  rcases t.fst_write_eq_or path text with ends | ⟨m, content, leads, ends⟩
  · rw [ends]
  · have apart : l ≠ m := by
      rintro rfl
      exact elsewhere leads
    rw [ends, file?_put_of_ne t content apart]

/-- If the path leads to no file, nothing is changed. -/
theorem fst_write_of_forall_target_ne (nowhere : ∀ l, t.target path ≠ .ok l) :
    (t.write path text).1 = t := by
  rcases t.fst_write_eq_or path text with ends | ⟨l, _, leads, -⟩
  · exact ends
  · exact absurd leads (nowhere l)

/-- If writing breaks off, the file is left with a beginning of the text. -/
theorem contents_write_of_breaksOff (breaksOff : t.BreaksOff path text) :
    ∃ content, (t.write path text).1.contents path = .ok content ∧ content.IsBeginningOf text := by
  obtain ⟨⟨l, leads⟩, fails⟩ := breaksOff
  rcases t.write_cases path text with
    ⟨_, blocked, -⟩ | ⟨_, -, ends⟩ | ⟨m, content, _, leads', partly, ends⟩
  · rw [blocked] at leads
    cases leads
  · exact absurd (congrArg Prod.snd ends) fails
  · rw [ends]
    exact ⟨content, contents_put leads', partly⟩

end FileTree

end Stencil
