/-
What can be wrong with a JSON text, and where. A place is a count of bytes from the start,
reported as a line and a column.
-/

namespace ExprShell.Json

/-- What is wrong with a JSON text. -/
inductive Cause where
  | eofValue
  | eofString
  | eofList
  | eofObject
  | expectedValue
  | expectedWord
  | expectedCommaOrBracket
  | expectedCommaOrBrace
  | expectedColon
  | keyNotString
  | trailingComma
  | trailingCharacters
  | invalidNumber
  | numberOutOfRange
  | controlCharacter
  | invalidEscape
  | loneSurrogate
  | cutSurrogate
  | tooDeep
  deriving Inhabited, DecidableEq, Repr

def Cause.message : Cause → String
  | eofValue => "EOF while parsing a value"
  | eofString => "EOF while parsing a string"
  | eofList => "EOF while parsing a list"
  | eofObject => "EOF while parsing an object"
  | expectedValue => "expected value"
  | expectedWord => "expected ident"
  | expectedCommaOrBracket => "expected `,` or `]`"
  | expectedCommaOrBrace => "expected `,` or `\x7d`"
  | expectedColon => "expected `:`"
  | keyNotString => "key must be a string"
  | trailingComma => "trailing comma"
  | trailingCharacters => "trailing characters"
  | invalidNumber => "invalid number"
  | numberOutOfRange => "number out of range"
  | controlCharacter => "control character (\\u0000-\\u001F) found while parsing a string"
  | invalidEscape => "invalid escape"
  | loneSurrogate => "lone leading surrogate in hex escape"
  | cutSurrogate => "unexpected end of hex escape"
  | tooDeep => "recursion limit exceeded"

/-- A cause with the line and column it is reported at. -/
structure Flaw where
  cause : Cause
  line : Nat
  column : Nat
  deriving Inhabited, DecidableEq, Repr

def Flaw.message (f : Flaw) : String :=
  s!"{f.cause.message} at line {f.line} column {f.column}"

end ExprShell.Json
