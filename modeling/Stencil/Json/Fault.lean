/-!
# Why a text is not JSON

A fault tells the reason and how many bytes of the text were read when it showed, the offending
byte included. Its place is given to people as a line and a column of that byte.
-/

namespace Stencil.Json

/-- Why a text is not JSON. -/
inductive Reason where
  | valueCutOff
  | arrayCutOff
  | objectCutOff
  | stringCutOff
  | valueExpected
  | wordExpected
  | keyExpected
  | colonExpected
  | memberEndExpected
  | itemEndExpected
  | trailingComma
  | trailingCharacters
  | badNumber
  | numberOutOfRange
  | badEscape
  | controlCharacter
  | loneSurrogate
  | escapeCutOff
  | nestedTooDeep
deriving Repr, DecidableEq

/-- The wording of a reason. -/
def Reason.message : Reason → String
  | valueCutOff => "EOF while parsing a value"
  | arrayCutOff => "EOF while parsing a list"
  | objectCutOff => "EOF while parsing an object"
  | stringCutOff => "EOF while parsing a string"
  | valueExpected => "expected value"
  | wordExpected => "expected ident"
  | keyExpected => "key must be a string"
  | colonExpected => "expected `:`"
  | memberEndExpected => "expected `,` or `\x7d`"
  | itemEndExpected => "expected `,` or `]`"
  | trailingComma => "trailing comma"
  | trailingCharacters => "trailing characters"
  | badNumber => "invalid number"
  | numberOutOfRange => "number out of range"
  | badEscape => "invalid escape"
  | controlCharacter => "control character (\\u0000-\\u001F) found while parsing a string"
  | loneSurrogate => "lone leading surrogate in hex escape"
  | escapeCutOff => "unexpected end of hex escape"
  | nestedTooDeep => "recursion limit exceeded"

/-- Why a text is not JSON, and the number of bytes read when that showed. -/
structure Fault where
  reason : Reason
  read : Nat
deriving Repr, DecidableEq

/-- The 1-based line and the column of the byte before byte `read` of a text, given those of the
byte before its start: columns count the bytes since the last newline. -/
def place (line column : Nat) : List Char → Nat → Nat × Nat
  | [], _ => (line, column)
  | c :: s, read =>
    if read = 0 then (line, column)
    else if c = '\n' then place (line + 1) 0 s (read - 1)
    else if read < c.utf8Size then (line, column + read)
    else place line (column + c.utf8Size) s (read - c.utf8Size)

/-- The message of a fault in a text. -/
def Fault.message (fault : Fault) (text : String) : String :=
  let (line, column) := place 1 0 text.toList fault.read
  fault.reason.message ++ s!" at line {line} column {column}"

end Stencil.Json
