import ExportLint.Text.LineMap

/-!
# Refused texts

Why a text is not read as JSON, and where that was found. A reader knows only what it has not yet
consumed, so a refusal keeps the number of bytes that are left; line and column follow from the
whole text.
-/

namespace ExportLint.Json

/-- Why a text is refused. -/
inductive Cause where
  | endInValue
  | endInList
  | endInObject
  | endInString
  | expectedWord
  | expectedValue
  | expectedListEnd
  | expectedObjectEnd
  | expectedColon
  | keyNotString
  | trailingComma
  | trailingCharacters
  | tooDeep
  | invalidNumber
  | numberOutOfRange
  | controlCharacter
  | invalidEscape
  | loneSurrogate
  | brokenSurrogatePair
  /-- The text is JSON so far, but the value is not of the kind that is wanted. -/
  | wrongKind
  deriving Repr, DecidableEq

namespace Cause

/-- The wording of a cause. -/
def message : Cause → String
  | endInValue => "EOF while parsing a value"
  | endInList => "EOF while parsing a list"
  | endInObject => "EOF while parsing an object"
  | endInString => "EOF while parsing a string"
  | expectedWord => "expected ident"
  | expectedValue => "expected value"
  | expectedListEnd => "expected `,` or `]`"
  | expectedObjectEnd => "expected `,` or `\x7d`"
  | expectedColon => "expected `:`"
  | keyNotString => "key must be a string"
  | trailingComma => "trailing comma"
  | trailingCharacters => "trailing characters"
  | tooDeep => "recursion limit exceeded"
  | invalidNumber => "invalid number"
  | numberOutOfRange => "number out of range"
  | controlCharacter => "control character (\\u0000-\\u001F) found while parsing a string"
  | invalidEscape => "invalid escape"
  | loneSurrogate => "lone leading surrogate in hex escape"
  | brokenSurrogatePair => "unexpected end of hex escape"
  | wrongKind => "invalid type"

/-- Whether the text ended too early. -/
def isEnd : Cause → Bool
  | endInValue | endInList | endInObject | endInString => true
  | _ => false

end Cause

/-- How many bytes a text has. -/
def byteCount : List Char → Nat
  | [] => 0
  | c :: rest => c.utf8Size + byteCount rest

/-- A cause, and how many bytes of the text were left when it was found. -/
structure Refusal where
  cause : Cause
  left : Nat
  deriving Repr, DecidableEq

namespace Refusal

/-- A refusal found after `count` bytes of `rest`, or at its end if it is shorter. -/
def after (count : Nat) (rest : List Char) (cause : Cause) : Refusal :=
  ⟨cause, byteCount rest - count⟩

/-- A refusal found before the next byte. -/
def here (rest : List Char) (cause : Cause) : Refusal :=
  after 0 rest cause

/-- A refusal found at the next byte, which is counted as seen. -/
def next (rest : List Char) (cause : Cause) : Refusal :=
  after 1 rest cause

/-- The refusal of a text in words, with its line and the number of bytes seen on that line. -/
def describe (refusal : Refusal) (text : String) : String :=
  let offset := text.utf8ByteSize - refusal.left
  let map := LineMap.ofText text
  s!"{refusal.cause.message} at line {map.lineIndex offset + 1} column {offset - map.lineStart offset}"

end Refusal

end ExportLint.Json
