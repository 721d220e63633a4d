/-!
# What can be wrong with a text template

A text template is refused as a whole if any of its tags is malformed or its sections do not nest.
-/

namespace Stencil.Mustache

/-- What can be wrong with a text template. -/
inductive TemplateFault where
  /-- Something else follows the first character of a closing delimiter. -/
  | malformedClose
  /-- A tag is not closed. -/
  | unclosedTag
  /-- A section is not closed, or by the end of another one. -/
  | unclosedSection
  /-- A tag begins with a brace and does not end with one. -/
  | unbalancedBraces
  /-- A tag is blank, or blank where it needs a name. -/
  | emptyTag
  /-- The end of a section stands outside all sections. -/
  | unopenedSection
  /-- A tag that sets the delimiters has only one. -/
  | closingDelimiterMissing
  /-- A tag that sets the delimiters is not written between equals signs. -/
  | malformedDelimiters
  /-- A partial exists and cannot be read. -/
  | unreadablePartial
  /-- Reading one partial after the other does not come to an end. -/
  | tooManyPartials
deriving Repr, DecidableEq

/-- The wording of a fault. -/
def TemplateFault.message : TemplateFault → String
  | malformedClose => "found a malformed closing tag"
  | unclosedTag => "found an unclosed tag"
  | unclosedSection => "found an unclosed section"
  | unbalancedBraces => "found an unbalanced unescape tag"
  | emptyTag => "found an empty tag"
  | unopenedSection => "found a closing tag for an unopened section"
  | closingDelimiterMissing => "missing the new closing tag in set delimeter tag"
  | malformedDelimiters => "invalid set delimeter tag syntax"
  | unreadablePartial => "description() is deprecated; use Display"
  | tooManyPartials => "found too many partials"

end Stencil.Mustache
