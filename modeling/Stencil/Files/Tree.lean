import Stencil.Files.Fault
import Stencil.Files.Path

/-!
# Trees of files

A tree holds directories and files at locations, and a working directory from which paths lead.
Reading a file needs every step of its path to lead through a directory; so does writing one, which
replaces what was there and makes no directories.

A file is emptied when it is opened for writing, and takes the text after that. Where there is not
room for all of the text, what fits is left there.

## Main definitions

* `FileTree`: directories and files
* `FileTree.locate`, `FileTree.target`: where a path leads, and which file writing to it opens
* `FileTree.read`, `FileTree.write`: what reading and writing do
-/

namespace Stencil

/-- A place in a tree: the names on the way from the root. -/
abbrev Location := List String

/-- What a file holds: text, or bytes that are none. -/
inductive FileContent where
  | text (value : String)
  | bytes (value : List UInt8)
deriving Repr, DecidableEq

namespace FileContent

/-- The bytes of a file. -/
def toBytes : FileContent → List UInt8
  | text value => value.toUTF8.data.toList
  | bytes value => value

/-- What a file of the given bytes holds. -/
def ofBytes (bs : List UInt8) : FileContent :=
  match String.fromUTF8? ⟨bs.toArray⟩ with
  | some value => text value
  | none => bytes bs

/-- What a file holds that took the first bytes of a text and no more. -/
def beginning (value : String) (count : Nat) : FileContent :=
  ofBytes ((text value).toBytes.take count)

end FileContent

/-- How much a file can hold, where a disk may be full, a quota used up or the size of files
limited. -/
structure Bound where
  /-- How many bytes there is room for. -/
  room : Nat
  /-- Why there is no more room. -/
  fault : FileFault
deriving Repr, DecidableEq

/-- A tree of directories and files. The root and the working directory always exist. -/
structure FileTree where
  /-- The working directory. -/
  home : Location := []
  directories : List Location := []
  files : List (Location × FileContent) := []
  /-- The places at which there is not room for every text. -/
  bounds : List (Location × Bound) := []
deriving Repr, DecidableEq

namespace FileTree

/-- Whether a directory stands at a location. -/
def isDirectory (t : FileTree) (l : Location) : Bool :=
  l.isEmpty || l = t.home || t.directories.contains l

/-- What the file at a location holds, if there is one. -/
def file? (t : FileTree) (l : Location) : Option FileContent := t.files.lookup l

/-- Where a step leads from a directory; it has to be to a directory again. -/
def enter (t : FileTree) (base : Location) (step : String) : Except FileFault Location :=
  if step = FilePath.here then .ok base
  else if step = FilePath.above then .ok base.dropLast
  else if FilePath.isLongName step then .error .nameTooLong
  else
    let l := base ++ [step]
    if t.isDirectory l then .ok l
    else if (t.file? l).isSome then .error .notDirectory
    else .error .missing

/-- Where steps lead from a directory; each has to be to a directory. -/
def walk (t : FileTree) (base : Location) (steps : List String) : Except FileFault Location :=
  steps.foldlM t.enter base

/-- Where a path begins. -/
def start (t : FileTree) (path : FilePath) : Location :=
  if path.absolute then [] else t.home

/-- What a path leads to: a directory, or a name in an existing directory under which a file is or
may be. -/
inductive Goal where
  | directory (l : Location)
  | entry (parent : Location) (name : String)
deriving Repr, DecidableEq

/-- Where a path leads. The last step may be a name under which nothing is. -/
def locate (t : FileTree) (path : FilePath) : Except FileFault Goal := do
  match path.steps.getLast? with
  | none => return .directory (t.start path)
  | some last =>
    let l ← t.walk (t.start path) path.steps.dropLast
    if last = FilePath.here then return .directory l
    else if last = FilePath.above then return .directory l.dropLast
    else if t.isDirectory (l ++ [last]) then return .directory (l ++ [last])
    else return .entry l last

/-- The path that a text spells, which may be neither empty nor too long, nor hold the character
NUL. -/
def pathOf (text : String) : Except FileFault FilePath :=
  if text.toList.contains '\x00' then .error .nulInPath
  else if FilePath.isTooLong text then .error .nameTooLong
  else if text.isEmpty then .error .missing
  else .ok (FilePath.ofText text)

/-- What the file at a path holds. -/
def contents (t : FileTree) (text : String) : Except FileFault FileContent := do
  let path ← pathOf text
  match ← t.locate path with
  | .directory _ => .error .isDirectory
  | .entry parent name =>
    if FilePath.isLongName name then .error .nameTooLong
    else
      match t.file? (parent ++ [name]) with
      | none => .error .missing
      | some content => if path.endsWithSlash then .error .notDirectory else .ok content

/-- The text of the file at a path. -/
def read (t : FileTree) : FileReader := fun text => do
  match ← t.contents text with
  | .text value => .ok value
  | .bytes _ => .error .notText

/-- The tree with a file's contents replaced. -/
def put (t : FileTree) (l : Location) (content : FileContent) : FileTree :=
  { t with files := (l, content) :: t.files.filter (·.1 ≠ l) }

/-- The place of the file that is opened for writing to a path. A slash at the end is refused before
the name is looked at. -/
def target (t : FileTree) (text : String) : Except FileFault Location := do
  let path ← pathOf text
  match ← t.locate path with
  | .directory _ => .error .isDirectory
  | .entry parent name =>
    if path.endsWithSlash then .error .isDirectory
    else if FilePath.isLongName name then .error .nameTooLong
    else .ok (parent ++ [name])

/-- The bound that a text exceeds at a location. -/
def exceeded? (t : FileTree) (l : Location) (value : String) : Option Bound :=
  (t.bounds.lookup l).filter (·.room < value.utf8ByteSize)

/-- Writes text to the file at a path, replacing what it held; gives the tree afterwards, and why
not all of the text was written. -/
def write (t : FileTree) (text value : String) : FileTree × Option FileFault :=
  match t.target text with
  | .error fault => (t, some fault)
  | .ok l =>
    match t.exceeded? l value with
    | none => (t.put l (.text value), none)
    | some bound => (t.put l (.beginning value bound.room), some bound.fault)

/-- Where a step leads if all that is missing on the way is made. -/
def advance (base : Location) (step : String) : Location :=
  if step = FilePath.here then base
  else if step = FilePath.above then base.dropLast
  else base ++ [step]

/-- The tree with a file put at the end of a path, and the directories on the way. -/
def add (t : FileTree) (text : String) (content : FileContent) : FileTree :=
  let path := FilePath.ofText text
  let reached (count : Nat) := (path.steps.take count).foldl advance (t.start path)
  let onTheWay := (List.range (path.steps.length - 1)).map fun count => reached (count + 1)
  { t with directories := onTheWay ++ t.directories }.put (reached path.steps.length) content

@[simp] theorem file?_put_self (t : FileTree) (l : Location) (content : FileContent) :
    (t.put l content).file? l = some content := by
  simp [put, file?]

/-- Writing one file leaves the others as they are. -/
theorem file?_put_of_ne (t : FileTree) {l m : Location} (content : FileContent) (h : m ≠ l) :
    (t.put l content).file? m = t.file? m := by
  have other : (m == l) = false := by simpa using h
  have kept (files : List (Location × FileContent)) :
      (files.filter (·.1 ≠ l)).lookup m = files.lookup m := by
    induction files with
    | nil => rfl
    | cons entry files ih =>
      obtain ⟨k, held⟩ := entry
      by_cases hk : k = l
      · simpa [hk, List.lookup_cons, other] using ih
      · simp only [List.filter_cons, hk, ne_eq, not_false_eq_true, decide_true, if_true,
          List.lookup_cons]
        rw [ih]
  simp only [put, file?, List.lookup_cons, other]
  exact kept t.files

end FileTree

end Stencil
