import Stencil.Mustache.Tag

/-!
# Pieces of a text template

A text template is taken apart into text and tags. The delimiters are looked for character by
character and without a second try: the character that breaks off an opening delimiter is text,
and one that breaks off a closing delimiter is a fault. A closing delimiter of more than two
characters is never recognised: once its second character is found, what was found belongs to the
tag.

The text of a tag that begins with a brace runs over the next closing brace.

## Main definitions

* `Piece`: text or a tag
* `Piece.scan`: the pieces of a text, up to the first fault
-/

namespace Stencil.Mustache

/-- A piece of a text template. A tag tells whether the line ends after it. -/
inductive Piece where
  | text (value : List Char)
  | tag (tag : Tag) (endsLine : Bool)
deriving Repr, DecidableEq

namespace Piece

/-- Where scanning stands. -/
inductive Mode where
  /-- In text. -/
  | text
  /-- In an opening delimiter, of which `seen` was found, its end first; `next` and `later` are
  missing. -/
  | opening (seen : List Char) (next : Char) (later : List Char)
  /-- In a tag; `braced` tells that the next closing brace belongs to it. -/
  | tag (braced : Bool)
  /-- In a tag, after the first character of a closing delimiter. -/
  | closing (braced : Bool)
deriving Repr, DecidableEq

/-- The piece for text, unless there is none. -/
def ofText (reversed : List Char) : List Piece :=
  if reversed.isEmpty then [] else [text reversed.reverse]

/-- Whether a line ends here: at the end of the text or before a newline. -/
def endsLine : List Char → Bool
  | [] => true
  | '\n' :: _ => true
  | '\r' :: '\n' :: _ => true
  | _ => false

/-- Whether a tag whose text so far is `reversed` is about to be put in braces by `c`. -/
def opensBrace (reversed : List Char) (c : Char) : Bool := reversed.isEmpty && c = '\x7b'

/-- What a character does to scanning. -/
inductive Step where
  /-- Scanning goes on with the text so far, its end first. -/
  | proceed (mode : Mode) (reversed : List Char)
  /-- An opening delimiter is complete. -/
  | enterTag
  /-- A closing delimiter is complete. -/
  | leaveTag
  /-- A closing delimiter is broken off. -/
  | malformed
deriving Repr, DecidableEq

/-- What a character does to scanning. In text and in an opening delimiter `reversed` is the text
so far, in a tag and in a closing delimiter the text of the tag. -/
def step (d : Delimiters) (mode : Mode) (reversed : List Char) (c : Char) : Step :=
  match mode with
  | .text =>
    if c = d.opening.first then
      match d.opening.later with
      | [] => .enterTag
      | next :: later => .proceed (.opening [c] next later) reversed
    else .proceed .text (c :: reversed)
  | .opening seen next later =>
    if c = next then
      match later with
      | [] => .enterTag
      | next :: later => .proceed (.opening (c :: seen) next later) reversed
    else .proceed .text (c :: seen ++ reversed)
  | .tag braced =>
    if opensBrace reversed c then .proceed (.tag true) [c]
    else if braced ∧ c = '\x7d' then .proceed (.tag false) (c :: reversed)
    else if c = d.closing.first then
      match d.closing.later with
      | [] => .leaveTag
      | _ => .proceed (.closing braced) reversed
    else .proceed (.tag braced) (c :: reversed)
  | .closing braced =>
    match d.closing.later with
    | [] => .malformed
    | second :: later =>
      if c = second then
        match later with
        | [] => .leaveTag
        | _ => .proceed (.tag braced) (c :: d.closing.first :: reversed)
      else .malformed

/-- The pieces at the end of the text: what was found of a delimiter is text, and so is a tag that
lacks only the end of its closing delimiter. -/
def finish (d : Delimiters) (mode : Mode) (reversed : List Char) :
    List Piece × Option TemplateFault :=
  match mode with
  | .text => (ofText reversed, none)
  | .opening seen _ _ => (ofText (seen ++ reversed), none)
  | .tag _ => ([], some .unclosedTag)
  | .closing _ => (ofText (d.closing.first :: reversed), none)

/-- The delimiters after a tag. -/
def delimitersAfter (d : Delimiters) : Tag → Delimiters
  | .delimiters found => found
  | _ => d

/-- The pieces from a state of scanning on, up to the first fault. -/
def scanFrom (d : Delimiters) (mode : Mode) (reversed : List Char) :
    List Char → List Piece × Option TemplateFault
  | [] => finish d mode reversed
  | c :: s =>
    match step d mode reversed c with
    | .proceed mode reversed => scanFrom d mode reversed s
    | .enterTag =>
      let (pieces, fault) := scanFrom d (.tag false) [] s
      (ofText reversed ++ pieces, fault)
    | .leaveTag =>
      match Tag.read reversed.reverse with
      | .error fault => ([], some fault)
      | .ok found =>
        let (pieces, fault) := scanFrom (delimitersAfter d found) .text [] s
        (tag found (endsLine s) :: pieces, fault)
    | .malformed => ([], some .malformedClose)

/-- The pieces of a text template, up to the first fault. -/
def scan (s : List Char) : List Piece × Option TemplateFault :=
  scanFrom .braces .text [] s

end Piece

end Stencil.Mustache
