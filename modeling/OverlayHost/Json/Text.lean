import OverlayHost.Json.Cursor
import OverlayHost.Text.Digits
import OverlayHost.Text.Utf8

/-!
# Texts of a JSON text

What stands between double quotes: bytes of UTF-8, and escapes after a backslash. A character beyond the first 65536 may be
written as two escapes, for its two surrogates.
-/

set_option autoImplicit false

namespace OverlayHost.Json

namespace Text

/-- Whether a byte stands for itself inside the quotes. -/
def isPlain (b : UInt8) : Bool := b ≠ 34 && b ≠ 92 && 32 ≤ b

/-- The number that bytes write in base sixteen. -/
def hex? (bytes : List UInt8) : Option Nat :=
  bytes.foldlM (fun value b => (OverlayHost.Text.hexDigit? b).map fun digit => value * 16 + digit) 0

/-- Reads four digits in base sixteen. -/
def fourDigits (cursor : Cursor) : Except Error (Nat × Cursor) :=
  let digits := cursor.rest.take 4
  let after := Cursor.advance 4 cursor
  if digits.length < 4 then after.here .endInString
  else match hex? digits with
    | some value => .ok (value, after)
    | none => after.here .invalidEscape

/-- Whether a number is the first of two surrogates. -/
def isLeading (n : Nat) : Bool := 0xD800 ≤ n && n ≤ 0xDBFF

/-- Whether a number is the second of two surrogates. -/
def isTrailing (n : Nat) : Bool := 0xDC00 ≤ n && n ≤ 0xDFFF

/-- Reads one expected character between two surrogates. -/
def between (expected : Char) (cursor : Cursor) : Except Error Cursor :=
  match cursor.peek? with
  | none => cursor.here .endInString
  | some c => if c = expected then .ok cursor.step else cursor.step.here .unfinishedSurrogates

/-- Reads the character of an escape in base sixteen, after its letter. -/
def codePoint (cursor : Cursor) : Except Error (Char × Cursor) := do
  let (first, cursor) ← fourDigits cursor
  if isTrailing first then cursor.here .loneSurrogate
  else if isLeading first then
    let cursor ← between 'u' (← between '\\' cursor)
    let (second, cursor) ← fourDigits cursor
    if isTrailing second then
      return (Char.ofNat (0x10000 + (first - 0xD800) * 1024 + (second - 0xDC00)), cursor)
    else cursor.here .loneSurrogate
  else return (Char.ofNat first, cursor)

/-- The character that a letter stands for after a backslash. -/
def escaped? (letter : Char) : Option Char :=
  match letter with
  | '"' => some '"'
  | '\\' => some '\\'
  | '/' => some '/'
  | 'b' => some '\x08'
  | 'f' => some '\x0c'
  | 'n' => some '\n'
  | 'r' => some '\r'
  | 't' => some '\t'
  | _ => none

/-- Reads an escape, after its backslash. -/
def escape (cursor : Cursor) : Except Error (Char × Cursor) :=
  match cursor.peek? with
  | none => cursor.here .endInString
  | some 'u' => codePoint cursor.step
  | some letter =>
    match escaped? letter with
    | some c => .ok (c, cursor.step)
    | none => cursor.step.here .invalidEscape

/-- The characters of plain bytes, read from a place. -/
def decode (bytes : List UInt8) (start : Cursor) : Except Error (List Char) :=
  let decoded := OverlayHost.Text.Utf8.decode bytes
  let valid := (decoded.takeWhile Option.isSome).filterMap id
  if valid.length = decoded.length then .ok valid
  else (Cursor.advance (valid.foldl (fun size c => size + c.utf8Size) 0 + 1) start).here .invalidCodePoint

/-- Reads up to the closing quote, in a number of parts at most, each plain bytes and what ends them. -/
def parts : Nat → List Char → Cursor → Except Error (List Char × Cursor)
  | 0, _, cursor => cursor.here .endInString
  | n + 1, before, start => do
    let plain := start.rest.takeWhile isPlain
    let cursor := Cursor.advance plain.length start
    match cursor.peek? with
    | none => cursor.here .endInString
    | some '"' => return (before ++ (← decode plain start), cursor.step)
    | some '\\' =>
      let text ← decode plain start
      let (c, cursor) ← escape cursor.step
      parts n (before ++ text ++ [c]) cursor
    | some _ => cursor.step.here .controlCharacter

/-- Reads a text, after its opening quote. -/
def read (cursor : Cursor) : Except Error (String × Cursor) := do
  let (text, cursor) ← parts (cursor.rest.length + 1) [] cursor
  return (String.ofList text, cursor)

end Text

end OverlayHost.Json
