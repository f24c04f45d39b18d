import OverlayHost.Json.Cursor
import OverlayHost.Json.Text

/-!
# Skipping JSON values

A value that nobody asked for has to be one, but no more is asked of it: its numbers may be of any size, and its texts of any
bytes.
-/

set_option autoImplicit false

namespace OverlayHost.Json.Skip

/-- Skips an escape, after its backslash. -/
def escape (cursor : Cursor) : Except Error Cursor :=
  match cursor.peek? with
  | none => cursor.here .endInString
  | some 'u' => (Text.fourDigits cursor.step).map Prod.snd
  | some letter => if (Text.escaped? letter).isSome then .ok cursor.step else cursor.step.here .invalidEscape

/-- Skips up to the closing quote, in a number of parts at most. -/
def parts : Nat → Cursor → Except Error Cursor
  | 0, cursor => cursor.here .endInString
  | n + 1, cursor =>
    let cursor := cursor.dropWhile Text.isPlain
    match cursor.peek? with
    | none => cursor.here .endInString
    | some '"' => .ok cursor.step
    | some '\\' =>
      match escape cursor.step with
      | .ok after => parts n after
      | .error error => .error error
    | some _ => cursor.here .controlCharacter

/-- Skips a text, after its opening quote. -/
def text (cursor : Cursor) : Except Error Cursor := parts (cursor.rest.length + 1) cursor

/-- Skips an exponent, from its letter on. -/
def exponent (cursor : Cursor) : Except Error Cursor :=
  let letter := cursor.step
  let cursor := match letter.peek? with
    | some '+' => letter.step
    | some '-' => letter.step
    | _ => letter
  if cursor.atDigit then .ok (cursor.dropWhile Cursor.isDigit) else cursor.step.here .invalidNumber

/-- Skips an exponent, if there is one. -/
def exponent? (cursor : Cursor) : Except Error Cursor :=
  match cursor.peek? with
  | some 'e' => exponent cursor
  | some 'E' => exponent cursor
  | _ => .ok cursor

/-- Skips what follows the digits of an integer. -/
def afterInteger (cursor : Cursor) : Except Error Cursor :=
  match cursor.peek? with
  | some '.' =>
    if cursor.step.atDigit then exponent? (cursor.step.dropWhile Cursor.isDigit)
    else cursor.step.ahead .invalidNumber
  | _ => exponent? cursor

/-- Skips a number after its sign. -/
def number (cursor : Cursor) : Except Error Cursor :=
  match cursor.peek? with
  | some '0' => if cursor.step.atDigit then cursor.step.ahead .invalidNumber else afterInteger cursor.step
  | _ =>
    if cursor.atDigit then afterInteger (cursor.dropWhile Cursor.isDigit) else cursor.step.here .invalidNumber

/-- Reads the colon after the name of a member. -/
def colon (cursor : Cursor) : Except Error Cursor :=
  let cursor := cursor.skipBlanks
  match cursor.peek? with
  | some ':' => .ok cursor.step
  | some _ => cursor.ahead .expectedColon
  | none => cursor.ahead .endInObject

mutual

/-- Skips a value, in a number of steps at most. -/
def value : Nat → Cursor → Except Error Cursor
  | 0, cursor => cursor.here .endInValue
  | n + 1, cursor =>
    let cursor := cursor.skipBlanks
    match cursor.peek? with
    | none => cursor.ahead .endInValue
    | some 'n' => cursor.step.word ['u', 'l', 'l']
    | some 't' => cursor.step.word ['r', 'u', 'e']
    | some 'f' => cursor.step.word ['a', 'l', 's', 'e']
    | some '-' => number cursor.step
    | some '"' => text cursor.step
    | some '[' =>
      let inside := cursor.step.skipBlanks
      match inside.peek? with
      | some ']' => .ok inside.step
      | some _ => elements n inside
      | none => inside.ahead .endInList
    | some '\x7b' =>
      let inside := cursor.step.skipBlanks
      match inside.peek? with
      | some '\x7d' => .ok inside.step
      | _ => members n inside
    | some _ => if cursor.atDigit then number cursor else cursor.ahead .expectedValue

/-- Skips the elements of a list, from the next one to the closing bracket. -/
def elements : Nat → Cursor → Except Error Cursor
  | 0, cursor => cursor.here .endInList
  | n + 1, cursor =>
    match value n cursor with
    | .error error => .error error
    | .ok after =>
      let after := after.skipBlanks
      match after.peek? with
      | some ',' => elements n after.step
      | some ']' => .ok after.step
      | some _ => after.ahead .expectedListComma
      | none => after.ahead .endInList

/-- Skips the members of an object, from the next one to the closing brace. -/
def members : Nat → Cursor → Except Error Cursor
  | 0, cursor => cursor.here .endInObject
  | n + 1, cursor =>
    let cursor := cursor.skipBlanks
    match cursor.peek? with
    | some '"' =>
      match text cursor.step with
      | .error error => .error error
      | .ok name =>
        match colon name with
        | .error error => .error error
        | .ok place =>
          match value n place with
          | .error error => .error error
          | .ok after =>
            let after := after.skipBlanks
            match after.peek? with
            | some ',' => members n after.step
            | some '\x7d' => .ok after.step
            | some _ => after.ahead .expectedObjectComma
            | none => after.ahead .endInObject
    | some _ => cursor.ahead .keyNotString
    | none => cursor.ahead .endInObject

end

/-- Skips one value. -/
def any (cursor : Cursor) : Except Error Cursor := value (2 * cursor.rest.length + 2) cursor

end OverlayHost.Json.Skip
