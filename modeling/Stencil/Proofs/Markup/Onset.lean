import Stencil.Proofs.Markup.Lines

/-!
# Where the text of an element begins

The text of an element, its first child if that is character data, need not begin right after
the opening tag: comments, instructions and empty sections of character data may stand in between,
and the opening tag itself may take several lines. The text begins with what the first character of
it is written as.

## Main definitions

* `Visit.leads`, `Element.leads`: the opening tags of a tree, with the text that follows each
* `Token.lead?`, `onset?`: what comes before the first character of an element's text
* `Begins`: a text begins with what a character is written as

## Main results

* `Element.mem_leads`: which text belongs to the tag of an element
* `Element.forall₂_onsets`: where the texts of a tree begin
-/

namespace Stencil.Markup

open Stencil.Text

/-! ### Texts after tags -/

namespace Visit

/-- The text that is visited first, if that is text. -/
def leadingText? : List Visit → Option String
  | .text value _ :: _ => some value
  | _ => none

/-- The opening tags that are met, each with the text that is visited next, if text is. -/
def leads : List Visit → List (Tag × Option String)
  | [] => []
  | .opening tag :: walk => (tag, leadingText? walk) :: leads walk
  | .closing _ :: walk | .text _ _ :: walk => leads walk

theorem map_fst_leads (walk : List Visit) : (leads walk).map Prod.fst = walk.filterMap tag? := by
  induction walk with
  | nil => rfl
  | cons visit walk ih =>
    cases visit with
    | opening tag => exact congrArg (tag :: ·) ih
    | closing name => exact ih
    | text value line => exact ih

theorem mem_leads_append (before : List Visit) (tag : Tag) (walk : List Visit) :
    (tag, leadingText? walk) ∈ leads (before ++ .opening tag :: walk) := by
  induction before with
  | nil => exact List.mem_cons_self
  | cons visit before ih =>
    cases visit with
    | opening other => exact List.mem_cons_of_mem _ ih
    | closing name => exact ih
    | text value line => exact ih

theorem consText_opening (tag : Tag) (walk : List Visit) :
    consText (.opening tag) walk = .opening tag :: walk := by
  cases walk <;> rfl

theorem consText_closing (name : String) (walk : List Visit) :
    consText (.closing name) walk = .closing name :: walk := by
  cases walk <;> rfl

/-- Text that is joined to a walk comes before the text with which that begins. -/
theorem leadingText?_consText (value : String) (line : Nat) (walk : List Visit) :
    leadingText? (consText (.text value line) walk) =
      some (value ++ (leadingText? walk).getD "") := by
  rcases walk with _ | ⟨_ | _ | _, _⟩
  all_goals simp [consText, meet, HasText.text?, HasText.text, leadingText?]

theorem leads_consText (value : String) (line : Nat) (walk : List Visit) :
    leads (consText (.text value line) walk) = leads walk := by
  rcases walk with _ | ⟨_ | _ | _, _⟩ <;> rfl

end Visit

/-- The opening tags of a tree, each with the text that follows it, if text does. -/
def Element.leads (e : Element) : List (Tag × Option String) := Visit.leads e.walk

theorem Element.map_fst_leads (e : Element) : e.leads.map Prod.fst = e.tags :=
  Visit.map_fst_leads e.walk

/-- The text that follows the tag of an element is the first child of the element. -/
theorem Element.leadingText?_walkAll (e : Element) (walk : List Visit) :
    Visit.leadingText? (Node.walkAll e.children ++ .closing e.tag.name :: walk) = e.text? := by
  unfold Element.text?
  cases e.children with
  | nil => rfl
  | cons child children => cases child <;> rfl

theorem Element.mem_leads {root e : Element} (member : e ∈ root.elements) :
    (e.tag, e.text?) ∈ root.leads := by
  obtain ⟨before, after, isSplit⟩ := List.append_of_mem (mem_elements_iff.mp member)
  have isWalk : root.walk = (.opening root.tag :: Node.walkAll before) ++ .opening e.tag ::
      (Node.walkAll e.children ++ .closing e.tag.name ::
        (Node.walkAll after ++ [.closing root.tag.name])) := by
    simp [Element.walk, toNode, Node.walk, isSplit, Node.walkAll_append, Node.walkAll]
  have isLead := Visit.mem_leads_append (.opening root.tag :: Node.walkAll before) e.tag
    (Node.walkAll e.children ++ .closing e.tag.name ::
      (Node.walkAll after ++ [.closing root.tag.name]))
  rw [leadingText?_walkAll, ← isWalk] at isLead
  exact isLead

/-! ### The first character of a text -/

/-- The text begins with what the character is written as: itself, or a reference to it. -/
def Begins (s : List Char) (c : Char) : Prop :=
  s.head? = some c ∨
    ∃ name rest, s = '&' :: (name ++ ';' :: rest) ∧ Reference.resolve 1 name = .ok c

/-- Raw text stands for at least one character, and begins with what that is written as. -/
theorem Reference.begins_of_decode {first : Char} {raw value : List Char}
    (decoded : decode (first :: raw) = .ok value) :
    ∃ c others, value = c :: others ∧ ∀ rest, Begins (first :: raw ++ rest) c := by
  unfold decode at decoded
  rw [decodeFrom] at decoded
  split at decoded
  · rename_i isReference
    split at decoded
    · rename_i after isRest
      obtain ⟨c, resolved, decoded⟩ := bind_eq_ok_iff.mp decoded
      obtain ⟨others, -, done⟩ := bind_eq_ok_iff.mp decoded
      cases done
      have isRaw : raw.takeWhile (!isDelimiter ·) ++ ';' :: after = raw := by
        rw [← isRest, List.takeWhile_append_dropWhile]
      refine ⟨c, others, rfl, fun rest => .inr ⟨_, after ++ rest, ?_, resolved⟩⟩
      rw [isReference]
      calc '&' :: raw ++ rest
          = '&' :: ((raw.takeWhile (!isDelimiter ·) ++ ';' :: after) ++ rest) := by
            rw [isRaw, List.cons_append]
        _ = '&' :: (raw.takeWhile (!isDelimiter ·) ++ ';' :: (after ++ rest)) := by
            rw [List.append_assoc, List.cons_append]
    · cases decoded
  · obtain ⟨others, -, done⟩ := bind_eq_ok_iff.mp decoded
    cases done
    exact ⟨first, others, rfl, fun rest => .inl rfl⟩

/-! ### Where the text of an element begins -/

namespace Token

/-- What opens a section of character data. -/
def cdataOpening : List Char := ['<', '!', '[', 'C', 'D', 'A', 'T', 'A', '[']

/-- What stands before the first character of the text with which the contents of an element begin,
if they begin with text. -/
def lead? : List Token → Option (List Char)
  | [] => none
  | token :: tokens =>
    match token.piece with
    | .text _ => some []
    | .cdata (_ :: _) => some cdataOpening
    | .cdata [] | .comment _ | .instruction _ | .doctype _ =>
      (lead? tokens).map (token.lexeme ++ ·)
    | .opening _ | .selfClosing _ | .closing _ => none

/-- What stands between the `<` of an opening tag, this included, and the first character of the
text of its element, if that has a text. -/
def onset? : List Token → Option (List Char)
  | [] => none
  | token :: tokens =>
    match token.piece with
    | .opening _ => (lead? tokens).map (token.lexeme ++ ·)
    | _ => none

/-- The text with which the contents of an element begin, begins with the character. -/
def LeadTo (tokens : List Token) (c : Char) : Prop :=
  ∃ gap rest, lead? tokens = some gap ∧ tokens.flatMap lexeme = gap ++ rest ∧ Begins rest c

/-- A token that says nothing leaves the text to the tokens after it. -/
theorem LeadTo.cons {token : Token} {tokens : List Token} {c : Char} (later : LeadTo tokens c)
    (passes : lead? (token :: tokens) = (lead? tokens).map (token.lexeme ++ ·)) :
    LeadTo (token :: tokens) c := by
  obtain ⟨gap, rest, isLead, isText, begins⟩ := later
  refine ⟨token.lexeme ++ gap, rest, by rw [passes, isLead]; rfl, ?_, begins⟩
  rw [List.flatMap_cons, isText, List.append_assoc]

/-- Character data stands in the token as it is. -/
def SpellsText (token : Token) : Prop :=
  match token.piece with
  | .text raw => token.lexeme = raw ∧ raw ≠ []
  | .cdata content => token.lexeme = cdataOpening ++ (content ++ [']', ']', '>'])
  | _ => True

/-- The text begins with the first character that character data stands for. -/
theorem LeadTo.of_text {raw lexeme : List Char} {tokens : List Token} {c : Char}
    {others : List Char} (spells : SpellsText ⟨.text raw, lexeme⟩)
    (decoded : Reference.decode raw = .ok (c :: others)) :
    LeadTo (⟨.text raw, lexeme⟩ :: tokens) c := by
  obtain ⟨isLexeme, nonempty⟩ : lexeme = raw ∧ raw ≠ [] := spells
  obtain ⟨first, raw, rfl⟩ := List.exists_cons_of_ne_nil nonempty
  obtain ⟨c', others', isValue, begins⟩ := Reference.begins_of_decode decoded
  cases isValue
  refine ⟨[], lexeme ++ tokens.flatMap Token.lexeme, rfl, rfl, ?_⟩
  rw [isLexeme]
  exact begins _

/-- The text begins with the first character of a section of character data. -/
theorem LeadTo.of_cdata {c : Char} {content lexeme : List Char} {tokens : List Token}
    (spells : SpellsText ⟨.cdata (c :: content), lexeme⟩) :
    LeadTo (⟨.cdata (c :: content), lexeme⟩ :: tokens) c := by
  have isLexeme : lexeme = cdataOpening ++ (c :: content ++ [']', ']', '>']) := spells
  refine ⟨cdataOpening, c :: (content ++ [']', ']', '>'] ++ tokens.flatMap Token.lexeme), rfl,
    ?_, .inl rfl⟩
  rw [List.flatMap_cons, isLexeme, List.append_assoc]
  rfl

theorem spellsText_ofTag (content lexeme : List Char) : SpellsText ⟨ofTag content, lexeme⟩ := by
  unfold ofTag
  split <;> exact trivial

theorem spellsText_of_markup {s rest : List Char} {token : Token}
    (isMarkup : markup s = .ok (token, rest)) : token.SpellsText := by
  unfold markup bang at isMarkup
  repeat' split at isMarkup
  all_goals cases isMarkup
  all_goals first
    | exact trivial
    | exact List.append_assoc _ _ _
    | exact spellsText_ofTag _ _

theorem spellsText_of_next {c : Char} {s rest : List Char} {token : Token}
    (isNext : next c s = .ok (token, rest)) : token.SpellsText := by
  unfold next at isNext
  split at isNext
  · exact spellsText_of_markup isNext
  · cases isNext
    exact ⟨rfl, List.cons_ne_nil _ _⟩

/-- What is left of a text after some of its tokens has the other tokens. -/
theorem scan_flatMap_lexeme {s : List Char} {before after : List Token}
    (scanned : scan s = (before ++ after, none)) : scan (after.flatMap lexeme) = (after, none) := by
  induction before generalizing s with
  | nil =>
    have isText : after.flatMap lexeme = s := by
      simpa [scanned] using flatMap_lexeme_scan (congrArg Prod.snd scanned)
    rw [isText, scanned, List.nil_append]
  | cons token before ih =>
    rw [List.cons_append] at scanned
    cases s with
    | nil => simp [scan] at scanned
    | cons c s =>
      rw [scan] at scanned
      split at scanned
      · cases scanned
      · rename_i first rest isNext
        obtain ⟨areTokens, noFault⟩ := Prod.mk.inj scanned
        exact ih (Prod.ext (List.cons.inj areTokens).2 noFault)

end Token

namespace Event

/-- The walk that events tell of, with neighbouring character data in one piece. -/
def walkFrom (depth : Nat) (events : List Event) : List Visit := joinTexts (visitsFrom depth events)

section Walk

variable (depth : Nat) (events : List Event)

theorem walkFrom_opening (tag : Tag) :
    walkFrom depth (opening tag :: events) = .opening tag :: walkFrom (depth + 1) events :=
  Visit.consText_opening tag _

theorem walkFrom_selfClosing (tag : Tag) :
    walkFrom depth (selfClosing tag :: events) =
      .opening tag :: .closing tag.name :: walkFrom depth events := by
  have inside : joinTexts (.closing tag.name :: visitsFrom depth events) =
      .closing tag.name :: walkFrom depth events := Visit.consText_closing tag.name _
  exact (Visit.consText_opening tag _).trans (congrArg _ inside)

theorem walkFrom_closing (name : String) (line : Nat) :
    walkFrom depth (closing name line :: events) =
      .closing name :: walkFrom (depth - 1) events :=
  Visit.consText_closing name _

theorem walkFrom_characters (inside : depth ≠ 0) (value : String) (line : Nat) :
    walkFrom depth (characters value line :: events) =
      consText (.text value line) (walkFrom depth events) := by
  rw [walkFrom, visitsFrom, visits, if_neg inside]
  rfl

theorem leads_walkFrom_characters (value : String) (line : Nat) :
    Visit.leads (walkFrom depth (characters value line :: events)) =
      Visit.leads (walkFrom depth events) := by
  by_cases outside : depth = 0
  · subst outside
    rfl
  · rw [walkFrom_characters depth events outside, Visit.leads_consText]

end Walk

section Tokens

variable {index : LineIndex} {cause : Option MarkupFault} {names : List String} {offset : Nat}
  {token : Token} {tokens : List Token}

/-- The text with which the contents of an element begin, begins where the tokens say. -/
theorem leadTo_of_ofTokens (inside : names ≠ []) (spells : ∀ token ∈ tokens, token.SpellsText)
    (noFault : (ofTokens index cause names offset tokens).2 = none) {value : String}
    (isText : Visit.leadingText?
      (walkFrom names.length (ofTokens index cause names offset tokens).1) = some value)
    {c : Char} (isFirst : value.toList.head? = some c) : Token.LeadTo tokens c := by
  have depth : names.length ≠ 0 := by simpa using inside
  induction tokens generalizing offset value with
  | nil => simp [ofTokens, walkFrom, visitsFrom, joinTexts, Visit.leadingText?] at isText
  | cons token tokens ih =>
    obtain ⟨spellsFirst, spellsOthers⟩ := List.forall_mem_cons.mp spells
    obtain ⟨event, inner, isEvent, nests, noFaultLater, isCons⟩ := ofTokens_cons noFault
    rw [isCons] at isText
    obtain ⟨piece, lexeme⟩ := token
    cases piece with
    | text raw =>
      obtain ⟨decoded, isDecoded, rfl⟩ := exists_decoded isEvent
      cases nests
      -- Raw text is never empty, and what it stands for is not either.
      obtain ⟨first, raw, rfl⟩ := List.exists_cons_of_ne_nil spellsFirst.2
      obtain ⟨c', others, rfl, -⟩ := Reference.begins_of_decode isDecoded
      rw [walkFrom_characters _ _ depth, Visit.leadingText?_consText] at isText
      have same : c' = c := by
        rw [← Option.some.inj isText] at isFirst
        simpa using isFirst
      exact .of_text spellsFirst (same ▸ isDecoded)
    | cdata content =>
      cases isEvent
      cases nests
      rw [walkFrom_characters _ _ depth, Visit.leadingText?_consText] at isText
      cases content with
      | nil =>
        -- An empty section adds nothing: the text is what is joined to it, which must be there
        -- since the text has a first character.
        cases later : Visit.leadingText? (walkFrom names.length
            (ofTokens index cause names (offset + byteLength lexeme) tokens).1) with
        | none =>
          rw [later] at isText
          cases isText
          cases isFirst
        | some more =>
          rw [later] at isText
          have same : more = value := by simpa using isText
          exact (ih spellsOthers noFaultLater later (same ▸ isFirst)).cons rfl
      | cons first content =>
        have same : first = c := by
          rw [← Option.some.inj isText] at isFirst
          simpa using isFirst
        subst same
        exact .of_cdata spellsFirst
    | comment content | instruction content | doctype content =>
      -- These are not met on a walk, so what comes next is still first.
      cases isEvent
      cases nests
      exact (ih spellsOthers noFaultLater isText isFirst).cons rfl
    | closing name =>
      cases isEvent
      rw [walkFrom_closing] at isText
      cases isText
    | opening content =>
      obtain ⟨tag, -, rfl⟩ := map_eq_ok_iff.mp isEvent
      rw [walkFrom_opening] at isText
      cases isText
    | selfClosing content =>
      obtain ⟨tag, -, rfl⟩ := map_eq_ok_iff.mp isEvent
      rw [walkFrom_selfClosing] at isText
      cases isText

/-- The text that follows a tag begins where the tokens after that of the tag say: some of the
tokens are passed, and the others begin with the tag. -/
def BeginsAt (before : List Char) (tokens : List Token) (text? : Option String) (o : Opening) :
    Prop :=
  ∀ value ∈ text?, ∀ c ∈ value.toList.head?, ∃ passed later gap rest, tokens = passed ++ later ∧
    o.before = before ++ passed.flatMap Token.lexeme ∧ Token.onset? later = some gap ∧
    later.flatMap Token.lexeme = gap ++ rest ∧ Begins rest c

/-- The text of the element that the first token opens begins with the contents of that. -/
theorem BeginsAt.of_leadTo {before content lexeme : List Char} {text? : Option String}
    (leads : ∀ value ∈ text?, ∀ c ∈ value.toList.head?, Token.LeadTo tokens c) :
    BeginsAt before (⟨.opening content, lexeme⟩ :: tokens) text? ⟨before, content⟩ := by
  intro value isText c isFirst
  obtain ⟨gap, rest, isLead, isRest, begins⟩ := leads value isText c isFirst
  refine ⟨[], _, lexeme ++ gap, rest, rfl, (List.append_nil before).symm, ?_, ?_, begins⟩
  · rw [Token.onset?, isLead]
    rfl
  · rw [List.flatMap_cons, isRest, List.append_assoc]

/-- Texts begin where they do if one more token is passed. -/
theorem BeginsAt.cons {before : List Char} {text? : Option String} {o : Opening}
    (begins : BeginsAt (before ++ token.lexeme) tokens text? o) :
    BeginsAt before (token :: tokens) text? o := by
  intro value isText c isFirst
  obtain ⟨passed, later, gap, rest, isSplit, place, isOnset, isRest, beginsRest⟩ :=
    begins value isText c isFirst
  refine ⟨token :: passed, later, gap, rest, ?_, ?_, isOnset, isRest, beginsRest⟩
  · rw [isSplit, List.cons_append]
  · rw [place, List.flatMap_cons, List.append_assoc]

/-- The texts after the tags that events tell of begin where the tokens say. -/
theorem forall₂_beginsAt (index : LineIndex) (names : List String) (before : List Char)
    (spells : ∀ token ∈ tokens, token.SpellsText)
    (noFault : (ofTokens index cause names (byteLength before) tokens).2 = none) :
    List.Forall₂ (fun lead o => BeginsAt before tokens lead.2 o)
      (Visit.leads (walkFrom names.length
        (ofTokens index cause names (byteLength before) tokens).1))
      (Token.openings before tokens) := by
  induction tokens generalizing names before with
  | nil => exact .nil
  | cons token tokens ih =>
    obtain ⟨spellsFirst, spellsOthers⟩ := List.forall_mem_cons.mp spells
    obtain ⟨event, inner, isEvent, nests, noFaultLater, isCons⟩ := ofTokens_cons noFault
    rw [← byteLength_append] at noFaultLater isCons
    have depth := length_of_nest nests
    -- What the induction gives for the other tokens passes this one too.
    have others := (ih inner (before ++ token.lexeme) spellsOthers noFaultLater).imp
      fun lead o begins => begins.cons
    rw [depth] at others
    rw [isCons, Token.openings]
    obtain ⟨piece, lexeme⟩ := token
    cases piece with
    | opening content =>
      obtain ⟨tag, -, rfl⟩ := map_eq_ok_iff.mp isEvent
      cases nests
      rw [walkFrom_opening]
      refine .cons (.of_leadTo fun value isText c isFirst => ?_) others
      exact leadTo_of_ofTokens (List.cons_ne_nil _ names) spellsOthers noFaultLater isText isFirst
    | selfClosing content =>
      obtain ⟨tag, -, rfl⟩ := map_eq_ok_iff.mp isEvent
      rw [walkFrom_selfClosing]
      refine .cons (fun value isText => ?_) others
      -- The element is empty: no text follows its tag.
      cases isText
    | closing name =>
      cases isEvent
      rw [walkFrom_closing]
      exact others
    | text raw =>
      obtain ⟨decoded, -, rfl⟩ := exists_decoded isEvent
      rw [leads_walkFrom_characters]
      exact others
    | cdata content =>
      cases isEvent
      rw [leads_walkFrom_characters]
      exact others
    | comment content | instruction content | doctype content =>
      cases isEvent
      exact others

end Tokens

end Event

/-- What stands in a text between the `<` of the opening tag at its start, this included, and the
first character of the text of the element, if that has a text. -/
def onset? (s : List Char) : Option (List Char) := Token.onset? (Token.scan s).1

/-- A tag with the text that follows it, at the place of an opening tag in a document: the tag
stands there, and the text begins where the onset of the element ends. -/
structure LeadsAt (text : List Char) (lead : Tag × Option String) (o : Opening) : Prop where
  stands : lead.1.StandsAt text o
  begins : ∀ value ∈ lead.2, ∀ c ∈ value.toList.head?, ∃ gap rest,
    text = markOf text ++ o.before ++ (gap ++ rest) ∧ onset? (gap ++ rest) = some gap ∧
      Begins rest c

/-- The tags of a tree stand in the text it was read from, and the texts after them begin there. -/
theorem Element.forall₂_onsets {text : String} {root : Element}
    (parsed : Element.parse text = .ok root) :
    List.Forall₂ (LeadsAt text.toList) root.leads (openings text.toList) := by
  obtain ⟨unclosed, delivered, noFault, built⟩ := exists_events_of_parse parsed
  obtain ⟨wellFormed, -⟩ := Event.forall₂_openings (LineIndex.ofText text.toList) [] noFault
  have isWalk : root.walk = Event.walkFrom 0 (Event.ofText text.toList).1 :=
    walk_of_ofEvents delivered built
  have tags := forall₂_openings parsed
  have texts := Event.forall₂_beginsAt (LineIndex.ofText text.toList) [] []
    (Token.forall_mem_scan Token.spellsText_of_next _) noFault
  -- The two lists of facts run along the same tags, so they are joined place by place.
  rw [← map_fst_leads, List.forall₂_map_left_iff] at tags
  rw [List.forall₂_iff_zip] at tags texts ⊢
  refine ⟨tags.1, fun {lead o} inZip => ⟨tags.2 inZip, fun value isText c isFirst => ?_⟩⟩
  have inZip' : (lead, o) ∈ (Visit.leads (Event.walkFrom 0 (Event.ofText text.toList).1)).zip
      (openings text.toList) := by
    rw [← isWalk]
    exact inZip
  obtain ⟨passed, later, gap, rest, isSplit, place, isOnset, isRest, begins⟩ :=
    texts.2 inZip' value isText c isFirst
  have isScan : Token.scan (dropMark text.toList) = (passed ++ later, none) :=
    Prod.ext isSplit wellFormed
  refine ⟨gap, rest, ?_, ?_, begins⟩
  · have isText := Token.flatMap_lexeme_scan wellFormed
    rw [isSplit, List.flatMap_append, isRest] at isText
    rw [place, List.nil_append, List.append_assoc, isText, markOf_append_dropMark]
  · rw [onset?, ← isRest, Token.scan_flatMap_lexeme isScan]
    exact isOnset

end Stencil.Markup
