import OverlayHost.Json.Number
import OverlayHost.Json.Skip
import OverlayHost.Text.Quoted

/-!
# Decoding JSON

Decoders for the values that are asked for: truth values, texts, lists, and records with one field. A record may be written
as an object, whose other members are skipped, or as a list of its fields. The first fault in the order of the text is the
one that is found.
-/

set_option autoImplicit false

namespace OverlayHost.Json

/-- Reads a value and answers the place after it. -/
abbrev Decoder (α : Type) := Cursor → Except Error (α × Cursor)

namespace Decoder

variable {α : Type}

/-- Finds fault with the value that is next, which is not of the kind that was expected. -/
def mismatch (expected : String) (cursor : Cursor) : Except Error α :=
  let wrong (found : String) (after : Cursor) : Except Error α := after.here (.wrongType found expected)
  let wrongNumber (read : Except Error (Number × Cursor)) : Except Error α := do
    let (number, after) ← read
    wrong number.describe after
  match cursor.peek? with
  | some 'n' => do wrong "null" (← cursor.step.word ['u', 'l', 'l'])
  | some 't' => do wrong "boolean `true`" (← cursor.step.word ['r', 'u', 'e'])
  | some 'f' => do wrong "boolean `false`" (← cursor.step.word ['a', 'l', 's', 'e'])
  | some '-' => wrongNumber (Number.read false cursor.step)
  | some '"' => do
    let (text, after) ← Text.read cursor.step
    let shown := OverlayHost.Text.quoted text
    wrong s!"string {shown}" after
  | some '[' => wrong "sequence" cursor
  | some '\x7b' => wrong "map" cursor
  | _ => if cursor.atDigit then wrongNumber (Number.read true cursor) else cursor.ahead .expectedValue

/-- Looks at the first byte of a value; there has to be one. -/
def first (cursor : Cursor) : Except Error (Char × Cursor) :=
  let cursor := cursor.skipBlanks
  match cursor.peek? with
  | some c => .ok (c, cursor)
  | none => cursor.ahead .endInValue

/-- A truth value. -/
def boolean : Decoder Bool := fun cursor => do
  let (c, cursor) ← first cursor
  match c with
  | 't' => return (true, ← cursor.step.word ['r', 'u', 'e'])
  | 'f' => return (false, ← cursor.step.word ['a', 'l', 's', 'e'])
  | _ => mismatch "a boolean" cursor

/-- A text. -/
def text : Decoder String := fun cursor => do
  let (c, cursor) ← first cursor
  if c = '"' then Text.read cursor.step else mismatch "a string" cursor

/-- A value that may also be null. -/
def nullable (decoder : Decoder α) : Decoder (Option α) := fun cursor => do
  let start := cursor.skipBlanks
  match start.peek? with
  | some 'n' => return (none, ← start.step.word ['u', 'l', 'l'])
  | _ =>
    let (value, after) ← decoder start
    return (some value, after)

/-- Goes to the next element of a list, if there is one; `fresh` says that none was read before. -/
def nextElement (fresh : Bool) (cursor : Cursor) : Except Error (Bool × Cursor) :=
  let cursor := cursor.skipBlanks
  match cursor.peek? with
  | none => cursor.ahead .endInList
  | some ']' => .ok (false, cursor)
  | some c =>
    if fresh then .ok (true, cursor)
    else if c = ',' then
      let after := cursor.step.skipBlanks
      match after.peek? with
      | some ']' => after.ahead .trailingComma
      | some _ => .ok (true, after)
      | none => after.ahead .endInValue
    else cursor.ahead .expectedListComma

/-- Ends a list. -/
def endList (cursor : Cursor) : Except Error Cursor :=
  let cursor := cursor.skipBlanks
  match cursor.peek? with
  | some ']' => .ok cursor.step
  | some ',' =>
    let after := cursor.step.skipBlanks
    if after.peek? = some ']' then after.ahead .trailingComma else after.ahead .trailingCharacters
  | some _ => cursor.ahead .trailingCharacters
  | none => cursor.ahead .endInList

/-- The elements of a list, of a number at most. -/
def elements (decoder : Decoder α) : Nat → Bool → List α → Decoder (List α)
  | 0, _, _ => fun cursor => cursor.here .endInList
  | n + 1, fresh, before => fun cursor => do
    match ← nextElement fresh cursor with
    | (false, cursor) => return (before, cursor)
    | (true, cursor) =>
      let (value, cursor) ← decoder cursor
      elements decoder n false (before ++ [value]) cursor

/-- A list. -/
def list (decoder : Decoder α) : Decoder (List α) := fun cursor => do
  let (c, cursor) ← first cursor
  if c = '[' then
    let (values, cursor) ← elements decoder (cursor.rest.length + 1) true [] cursor.step
    return (values, ← endList cursor)
  else mismatch "a sequence" cursor

/-- Goes to the next member of an object, if there is one, and after the quote that opens its name. -/
def nextMember (fresh : Bool) (cursor : Cursor) : Except Error (Bool × Cursor) :=
  let cursor := cursor.skipBlanks
  match cursor.peek? with
  | none => cursor.ahead .endInObject
  | some '\x7d' => .ok (false, cursor)
  | some c =>
    if fresh then
      if c = '"' then .ok (true, cursor.step) else cursor.ahead .keyNotString
    else if c = ',' then
      let after := cursor.step.skipBlanks
      match after.peek? with
      | some '"' => .ok (true, after.step)
      | some '\x7d' => after.ahead .trailingComma
      | some _ => after.ahead .keyNotString
      | none => after.ahead .endInValue
    else cursor.ahead .expectedObjectComma

/-- The place after the brace that is next, if one is. -/
def afterBrace (cursor : Cursor) : Cursor :=
  let cursor := cursor.skipBlanks
  if cursor.peek? = some '\x7d' then cursor.step else cursor

/-- The members of an object, of a number at most, up to the closing brace. -/
def pairs (decoder : Decoder α) : Nat → Bool → List (String × α) → Decoder (List (String × α))
  | 0, _, _ => fun cursor => cursor.here .endInObject
  | n + 1, fresh, before => fun cursor => do
    match ← nextMember fresh cursor with
    | (false, cursor) => return (before, afterBrace cursor)
    | (true, cursor) =>
      let (name, cursor) ← Text.read cursor
      let (value, cursor) ← decoder (← Skip.colon cursor)
      pairs decoder n false (before ++ [(name, value)]) cursor

/-- An object, as its members in order. -/
def object (decoder : Decoder α) : Decoder (List (String × α)) := fun cursor => do
  let (c, cursor) ← first cursor
  if c = '\x7b' then pairs decoder (cursor.rest.length + 1) true [] cursor.step else mismatch "a map" cursor

/-- A record with one field. -/
structure Record (α : Type) where
  /-- What a message calls the record. -/
  record : String
  /-- The name of the field. -/
  name : String
  decoder : Decoder α
  /-- What the field is in an object without it, if it may be missing there. -/
  inObject : Option α
  /-- What the field is in an empty list, if it may be missing there. -/
  inList : Option α

/-- The members of an object, of a number at most, up to the closing brace. -/
def members (r : Record α) : Nat → Bool → Option α → Decoder (Option α)
  | 0, _, _ => fun cursor => cursor.here .endInObject
  | n + 1, fresh, found => fun cursor => do
    match ← nextMember fresh cursor with
    | (false, cursor) => return (found, cursor)
    | (true, cursor) =>
      let (name, cursor) ← Text.read cursor
      if name = r.name then
        if found.isSome then (afterBrace cursor).here (.duplicateField name)
        else
          let (value, cursor) ← r.decoder (← Skip.colon cursor)
          members r n false (some value) cursor
      else members r n false found (← Skip.any (← Skip.colon cursor))

/-- A record. -/
def record (r : Record α) : Decoder α := fun cursor => do
  let (c, cursor) ← first cursor
  let inside := cursor.step
  match c with
  | '\x7b' =>
    let (found, cursor) ← members r (inside.rest.length + 1) true none inside
    let after := afterBrace cursor
    match found.or r.inObject with
    | some value => return (value, after)
    | none => after.here (.missingField r.name)
  | '[' =>
    match ← nextElement true inside with
    | (false, cursor) =>
      match r.inList with
      | some value => return (value, ← endList cursor)
      | none => cursor.step.here (.wrongLength 0 s!"struct {r.record} with 1 element")
    | (true, cursor) =>
      let (value, cursor) ← r.decoder cursor
      return (value, ← endList cursor)
  | _ => mismatch s!"struct {r.record}" cursor

/-- Reads a whole text: one value, and nothing after it but blank space. -/
def run (decoder : Decoder α) (bytes : List UInt8) : Except Error α := do
  let (value, cursor) ← decoder { rest := bytes }
  let cursor := cursor.skipBlanks
  if cursor.rest.isEmpty then return value else cursor.ahead .trailingCharacters

end Decoder

end OverlayHost.Json
