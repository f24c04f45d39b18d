/-!
# A place in a JSON text

The bytes of a text that are still to be read, with the line and the column reached, and the faults that a reader may
find. A byte is looked at as the character with its number; only ASCII characters have a meaning outside of strings.
-/

set_option autoImplicit false

namespace OverlayHost.Json

/-- What may be wrong with a JSON text, or with how it fits what is wanted. -/
inductive Fault where
  | endInValue
  | endInList
  | endInObject
  | endInString
  | expectedColon
  | expectedListComma
  | expectedObjectComma
  | expectedIdent
  | expectedValue
  | keyNotString
  | trailingComma
  | trailingCharacters
  | invalidNumber
  | numberOutOfRange
  | invalidEscape
  | controlCharacter
  | invalidCodePoint
  | loneSurrogate
  | unfinishedSurrogates
  | wrongType (found expected : String)
  | wrongLength (found : Nat) (expected : String)
  | missingField (name : String)
  | duplicateField (name : String)
deriving DecidableEq, Repr

/-- The fault in words. -/
def Fault.message : Fault → String
  | .endInValue => "EOF while parsing a value"
  | .endInList => "EOF while parsing a list"
  | .endInObject => "EOF while parsing an object"
  | .endInString => "EOF while parsing a string"
  | .expectedColon => "expected `:`"
  | .expectedListComma => "expected `,` or `]`"
  | .expectedObjectComma => "expected `,` or `\x7d`"
  | .expectedIdent => "expected ident"
  | .expectedValue => "expected value"
  | .keyNotString => "key must be a string"
  | .trailingComma => "trailing comma"
  | .trailingCharacters => "trailing characters"
  | .invalidNumber => "invalid number"
  | .numberOutOfRange => "number out of range"
  | .invalidEscape => "invalid escape"
  | .controlCharacter => "control character (\\u0000-\\u001F) found while parsing a string"
  | .invalidCodePoint => "invalid unicode code point"
  | .loneSurrogate => "lone leading surrogate in hex escape"
  | .unfinishedSurrogates => "unexpected end of hex escape"
  | .wrongType found expected => s!"invalid type: {found}, expected {expected}"
  | .wrongLength found expected => s!"invalid length {found}, expected {expected}"
  | .missingField name => s!"missing field `{name}`"
  | .duplicateField name => s!"duplicate field `{name}`"

/-- A fault and where it was found. -/
structure Error where
  fault : Fault
  line : Nat
  column : Nat
deriving DecidableEq, Repr

/-- The error in one line. -/
def Error.message (error : Error) : String :=
  s!"{error.fault.message} at line {error.line} column {error.column}"

/-- A place in a text. The column counts the bytes read of the line. -/
structure Cursor where
  rest : List UInt8
  line : Nat := 1
  column : Nat := 0
deriving Repr

namespace Cursor

/-- The next byte, as the character with its number. -/
def peek? (cursor : Cursor) : Option Char := cursor.rest.head?.map fun b => Char.ofNat b.toNat

/-- The place after the next byte; the end stays where it is. -/
def step (cursor : Cursor) : Cursor :=
  match cursor.rest with
  | [] => cursor
  | b :: rest =>
    if b = 10 then { rest, line := cursor.line + 1, column := 0 }
    else { rest, line := cursor.line, column := cursor.column + 1 }

/-- The place after a number of bytes. -/
def advance : Nat → Cursor → Cursor
  | 0, cursor => cursor
  | n + 1, cursor => advance n cursor.step

/-- A fault found after the bytes read. -/
def here {α : Type} (cursor : Cursor) (fault : Fault) : Except Error α :=
  .error ⟨fault, cursor.line, cursor.column⟩

/-- A fault found in the next byte. -/
def ahead {α : Type} (cursor : Cursor) (fault : Fault) : Except Error α := cursor.step.here fault

/-- Whether a byte is blank space. -/
def isBlank (b : UInt8) : Bool := b = 32 || b = 10 || b = 9 || b = 13

/-- Whether a byte is a decimal digit. -/
def isDigit (b : UInt8) : Bool := 48 ≤ b && b ≤ 57

/-- The place after the longest run of bytes on which a test holds. -/
def dropWhile (test : UInt8 → Bool) (cursor : Cursor) : Cursor :=
  advance (cursor.rest.takeWhile test).length cursor

/-- The place after blank space. -/
def skipBlanks (cursor : Cursor) : Cursor := cursor.dropWhile isBlank

/-- Whether a digit is next. -/
def atDigit (cursor : Cursor) : Bool := cursor.rest.head?.any isDigit

/-- Reads the rest of a word; every character read must be the expected one. -/
def word (cursor : Cursor) : List Char → Except Error Cursor
  | [] => .ok cursor
  | expected :: others =>
    match cursor.peek? with
    | none => cursor.here .endInValue
    | some c => if c = expected then cursor.step.word others else cursor.step.here .expectedIdent

end Cursor

end OverlayHost.Json
