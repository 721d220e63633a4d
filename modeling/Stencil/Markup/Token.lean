import Stencil.Text.Blank
import Stencil.Text.Line

/-!
# Tokens of a markup text

A markup text falls into tokens: runs of character data, which reach up to the next `<`, and
pieces of markup, which begin with `<`. How a piece ends depends on how it begins; a `>` inside
quotes does not end a tag. Tokens are cut out without looking inside them: what a tag says and what
its references denote is read later, and only if everything before it was in order.

## Main definitions

* `Token`: a piece of the text with the characters it was cut from
* `MarkupFault`: why no token, or no matching tag, is found
* `Token.next`: the token at the start of a text, and the rest
* `Token.scan`: all tokens, up to the first fault
-/

namespace Stencil.Markup

open Stencil.Text

/-- Why markup is not well formed. The first group concerns a single piece of markup, the second
how pieces fit together. -/
inductive MarkupFault where
  | unknownMarkup
  | cdataOpen
  | commentOpen
  | doctypeOpen
  | instructionOpen
  | tagOpen
  | namelessDoctype
  | mismatchedClose (expected found : String)
  | unmatchedClose (name : String)
deriving Repr, DecidableEq

/-- The wording of a fault, without its class. -/
def MarkupFault.wording : MarkupFault → String
  | .unknownMarkup => "unknown or missed symbol in markup"
  | .cdataOpen => "CDATA not closed: `]]>` not found before end of input"
  | .commentOpen => "comment not closed: `-->` not found before end of input"
  | .doctypeOpen => "DOCTYPE not closed: `>` not found before end of input"
  | .instructionOpen =>
    "processing instruction or xml declaration not closed: `?>` not found before end of input"
  | .tagOpen => "tag not closed: `>` not found before end of input"
  | .namelessDoctype => "`<!DOCTYPE>` declaration does not contain a name of a document type"
  | .mismatchedClose expected found => s!"expected `</{expected}>`, but `</{found}>` was found"
  | .unmatchedClose name => s!"close tag `</{name}>` does not match any open tag"

/-- The class of a fault: a piece of markup that cannot be read, or one that is out of place. -/
def MarkupFault.category : MarkupFault → String
  | .namelessDoctype | .mismatchedClose _ _ | .unmatchedClose _ => "ill-formed document"
  | _ => "syntax error"

/-- The message of a fault: its class and wording, then the wording as the cause. -/
def MarkupFault.message (fault : MarkupFault) : String :=
  fault.category ++ ": " ++ fault.wording ++ ": " ++ fault.wording

/-- What a token is. Tags and character data are kept as written; comments, processing
instructions and document type declarations stay in the text but say nothing. -/
inductive Piece where
  | text (raw : List Char)
  | cdata (content : List Char)
  | comment (content : List Char)
  | instruction (content : List Char)
  | doctype (content : List Char)
  | opening (content : List Char)
  | selfClosing (content : List Char)
  | closing (name : List Char)
deriving Repr, DecidableEq

/-- A piece of a markup text, with the characters it was cut from. -/
structure Token where
  piece : Piece
  lexeme : List Char
deriving Repr, DecidableEq

namespace Token

/-- What stands before the first occurrence of `mark`, and what follows it. -/
def splitAtMark? (mark : List Char) : List Char → Option (List Char × List Char)
  | [] => none
  | c :: s =>
    if mark.isPrefixOf (c :: s) then some ([], (c :: s).drop mark.length)
    else (splitAtMark? mark s).map fun (content, rest) => (c :: content, rest)

/-- What stands before the first `>` outside quotes, and what follows it; `quote` is the quote
that is open at the start. -/
def splitTag? (quote : Option Char) : List Char → Option (List Char × List Char)
  | [] => none
  | c :: s =>
    match quote with
    | some q =>
      (splitTag? (if c = q then none else some q) s).map fun (content, rest) =>
        (c :: content, rest)
    | none =>
      if c = '>' then some ([], s)
      else
        (splitTag? (if c = '"' ∨ c = '\'' then some c else none) s).map fun (content, rest) =>
          (c :: content, rest)

/-- What stands before the first `>` that closes no `<` since the start, with `depth` of them open
at the start, and what follows it. -/
def splitBalanced? (depth : Nat) : List Char → Option (List Char × List Char)
  | [] => none
  | c :: s =>
    let wider (depth : Nat) :=
      (splitBalanced? depth s).map fun (content, rest) => (c :: content, rest)
    if c = '<' then wider (depth + 1)
    else if c = '>' then
      match depth with
      | 0 => some ([], s)
      | depth + 1 => wider depth
    else wider depth

/-- A closing tag's name ends before its trailing blanks, unless there is nothing else. -/
def closingName (content : List Char) : List Char :=
  if content.all isSpace then content else (content.reverse.dropWhile isSpace).reverse

/-- The piece that a tag's content stands for, `/` at its end closing the element at once. -/
def ofTag (content : List Char) : Piece :=
  match content.getLast? with
  | some '/' => .selfClosing content.dropLast
  | _ => .opening content

/-- Reads the piece of markup after `<!`. -/
def bang : List Char → Except MarkupFault (Token × List Char)
  | '[' :: s =>
    match (if ['C', 'D', 'A', 'T', 'A', '['].isPrefixOf s then
        splitAtMark? [']', ']', '>'] (s.drop 6) else none) with
    | some (content, rest) => .ok (⟨.cdata content,
        ['<', '!', '[', 'C', 'D', 'A', 'T', 'A', '['] ++ content ++ [']', ']', '>']⟩, rest)
    | none => .error .cdataOpen
  | '-' :: s =>
    match (if ['-'].isPrefixOf s then splitAtMark? ['-', '-', '>'] (s.drop 1) else none) with
    | some (content, rest) => .ok (⟨.comment content,
        ['<', '!', '-', '-'] ++ content ++ ['-', '-', '>']⟩, rest)
    | none => .error .commentOpen
  | c :: s =>
    if c = 'D' ∨ c = 'd' then
      match (if (s.take 6).map Char.toUpper = ['O', 'C', 'T', 'Y', 'P', 'E'] then
          splitBalanced? 0 (s.drop 6) else none) with
      | some (content, rest) =>
        if content.all isSpace then .error .namelessDoctype
        else .ok (⟨.doctype content, ['<', '!', c] ++ s.take 6 ++ content ++ ['>']⟩, rest)
      | none => .error .doctypeOpen
    else .error .unknownMarkup
  | [] => .error .unknownMarkup

/-- Reads the piece of markup after `<`. -/
def markup : List Char → Except MarkupFault (Token × List Char)
  | '!' :: s => bang s
  | '?' :: s =>
    match (if s.head? = some '>' then none else splitAtMark? ['?', '>'] s) with
    | some (content, rest) => .ok (⟨.instruction content,
        ['<', '?'] ++ content ++ ['?', '>']⟩, rest)
    | none => .error .instructionOpen
  | '/' :: s =>
    match splitTag? none s with
    | some (content, rest) => .ok (⟨.closing (closingName content),
        ['<', '/'] ++ content ++ ['>']⟩, rest)
    | none => .error .tagOpen
  | s =>
    match splitTag? none s with
    | some (content, rest) => .ok (⟨ofTag content, ['<'] ++ content ++ ['>']⟩, rest)
    | none => .error .tagOpen

/-- Reads the token at the start of the text `c :: s`. -/
def next (c : Char) (s : List Char) : Except MarkupFault (Token × List Char) :=
  if c = '<' then markup s
  else
    let raw := c :: s.takeWhile (· ≠ '<')
    .ok (⟨.text raw, raw⟩, s.dropWhile (· ≠ '<'))

/-! ### Nothing is lost -/

theorem append_of_splitAtMark? {mark s content rest : List Char}
    (h : splitAtMark? mark s = some (content, rest)) : content ++ mark ++ rest = s := by
  induction s generalizing content with
  | nil => simp [splitAtMark?] at h
  | cons c s ih =>
    unfold splitAtMark? at h
    split at h
    · rename_i found
      obtain ⟨t, ht⟩ := List.isPrefixOf_iff_prefix.mp found
      simp only [Option.some.injEq, Prod.mk.injEq] at h
      obtain ⟨rfl, rfl⟩ := h
      rw [← ht, List.drop_left]
      simp
    · obtain ⟨⟨content', rest'⟩, found, shape⟩ := Option.map_eq_some_iff.mp h
      simp only [Prod.mk.injEq] at shape
      obtain ⟨rfl, rfl⟩ := shape
      simpa using ih found

theorem append_of_splitTag? {quote : Option Char} {s content rest : List Char}
    (h : splitTag? quote s = some (content, rest)) : content ++ ['>'] ++ rest = s := by
  induction s generalizing quote content with
  | nil => simp [splitTag?] at h
  | cons c s ih =>
    unfold splitTag? at h
    split at h
    · obtain ⟨⟨content', rest'⟩, found, shape⟩ := Option.map_eq_some_iff.mp h
      simp only [Prod.mk.injEq] at shape
      obtain ⟨rfl, rfl⟩ := shape
      simpa using ih found
    · split at h
      · rename_i close
        simp only [Option.some.injEq, Prod.mk.injEq] at h
        obtain ⟨rfl, rfl⟩ := h
        simp [close]
      · obtain ⟨⟨content', rest'⟩, found, shape⟩ := Option.map_eq_some_iff.mp h
        simp only [Prod.mk.injEq] at shape
        obtain ⟨rfl, rfl⟩ := shape
        simpa using ih found

theorem append_of_splitBalanced? {depth : Nat} {s content rest : List Char}
    (h : splitBalanced? depth s = some (content, rest)) : content ++ ['>'] ++ rest = s := by
  induction s generalizing depth content with
  | nil => simp [splitBalanced?] at h
  | cons c s ih =>
    unfold splitBalanced? at h
    have wider {depth : Nat} (h : ((splitBalanced? depth s).map fun (content, rest) =>
        (c :: content, rest)) = some (content, rest)) : content ++ ['>'] ++ rest = c :: s := by
      obtain ⟨⟨content', rest'⟩, found, shape⟩ := Option.map_eq_some_iff.mp h
      simp only [Prod.mk.injEq] at shape
      obtain ⟨rfl, rfl⟩ := shape
      simpa using ih found
    simp only at h
    split at h
    · exact wider h
    · split at h
      · rename_i close
        split at h
        · simp only [Option.some.injEq, Prod.mk.injEq] at h
          obtain ⟨rfl, rfl⟩ := h
          simp [close]
        · exact wider h
      · exact wider h

theorem append_of_bang {s rest : List Char} {token : Token} (h : bang s = .ok (token, rest)) :
    token.lexeme ++ rest = '<' :: '!' :: s := by
  unfold bang at h
  split at h
  · rename_i s
    split at h
    · rename_i content rest' found
      split at found
      · rename_i isMark
        obtain ⟨t, rfl⟩ := List.isPrefixOf_iff_prefix.mp isMark
        cases h
        have := append_of_splitAtMark? found
        simp at this ⊢
        exact this
      · simp at found
    · simp at h
  · rename_i s
    split at h
    · rename_i content rest' found
      split at found
      · rename_i isMark
        obtain ⟨t, rfl⟩ := List.isPrefixOf_iff_prefix.mp isMark
        cases h
        have := append_of_splitAtMark? found
        simp at this ⊢
        exact this
      · simp at found
    · simp at h
  · rename_i c s _ _
    split at h
    · split at h
      · rename_i content rest' found
        split at found
        · split at h
          · simp at h
          · cases h
            have := append_of_splitBalanced? found
            rw [List.append_assoc, List.append_assoc, List.append_assoc]
            rw [List.append_assoc] at this
            simp only [List.cons_append, List.nil_append] at this ⊢
            rw [this, List.take_append_drop]
        · simp at found
      · simp at h
    · simp at h
  · simp at h

theorem append_of_markup {s rest : List Char} {token : Token}
    (h : markup s = .ok (token, rest)) : token.lexeme ++ rest = '<' :: s := by
  unfold markup at h
  split at h
  · exact append_of_bang h
  · split at h
    · rename_i content rest' found
      split at found
      · simp at found
      · cases h
        simpa using append_of_splitAtMark? found
    · simp at h
  · split at h
    · rename_i content rest' found
      cases h
      simpa using append_of_splitTag? found
    · simp at h
  · split at h
    · rename_i content rest' found
      cases h
      simpa using append_of_splitTag? found
    · simp at h

/-- A token and what follows it make up the text it was read from. -/
theorem append_of_next {c : Char} {s rest : List Char} {token : Token}
    (h : next c s = .ok (token, rest)) : token.lexeme ++ rest = c :: s := by
  unfold next at h
  split at h
  · rename_i lt
    rw [lt]
    exact append_of_markup h
  · cases h
    simp

theorem lexeme_ne_nil_of_markup {s rest : List Char} {token : Token}
    (h : markup s = .ok (token, rest)) : token.lexeme ≠ [] := by
  unfold markup bang at h
  repeat' split at h
  all_goals first
    | (simp only [Except.ok.injEq, Prod.mk.injEq] at h; obtain ⟨rfl, -⟩ := h; simp)
    | simp at h

theorem lexeme_ne_nil_of_next {c : Char} {s rest : List Char} {token : Token}
    (h : next c s = .ok (token, rest)) : token.lexeme ≠ [] := by
  unfold next at h
  split at h
  · exact lexeme_ne_nil_of_markup h
  · cases h
    simp

theorem length_lt_of_next {c : Char} {s rest : List Char} {token : Token}
    (h : next c s = .ok (token, rest)) : rest.length < (c :: s).length := by
  have whole := congrArg List.length (append_of_next h)
  have := List.length_pos_iff.mpr (lexeme_ne_nil_of_next h)
  rw [List.length_append] at whole
  omega

/-- All tokens of a text up to the first fault, and that fault if there is one. -/
def scan : List Char → List Token × Option MarkupFault
  | [] => ([], none)
  | c :: s =>
    match _ : next c s with
    | .error fault => ([], some fault)
    | .ok (token, rest) =>
      let (tokens, fault) := scan rest
      (token :: tokens, fault)
termination_by s => s.length
decreasing_by exact length_lt_of_next ‹_›

end Token

end Stencil.Markup
