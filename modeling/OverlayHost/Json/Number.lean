import OverlayHost.Decimal.Notation
import OverlayHost.Json.Cursor

/-!
# Numbers of a JSON text

A number without fraction and exponent is an integer if it fits in 64 bits, with or without a sign. Any other is a double:
its first digits, as many as fit in 64 bits, times or divided by a power of ten.
-/

set_option autoImplicit false

namespace OverlayHost.Json

/-- A number as it is read. -/
inductive Number where
  | integer (value : Int)
  | float (value : Float)

/-- What a message calls a number. -/
def Number.describe : Number → String
  | .integer value => s!"integer `{value}`"
  | .float value => s!"floating point `{Decimal.general value}`"

namespace Number

/-- The integer of a sign and a magnitude, as long as it has one. -/
def ofMagnitude (positive : Bool) (magnitude : Nat) : Number :=
  if positive then .integer magnitude
  else if 0 < magnitude && magnitude ≤ Nat.pow 2 63 then .integer (-(magnitude : Int))
  else .float (-(Float.ofNat magnitude))

/-- The double of a sign and a magnitude. -/
def ofFloat (positive : Bool) (magnitude : Float) : Number :=
  .float (if positive then magnitude else -magnitude)

/-- A power of ten as a double. -/
def power (exponent : Nat) : Float := Float.ofScientific 1 false exponent

/-- A double times a power of ten, in one or more steps; nothing if it is too large. -/
def scale : Nat → Float → Int → Option Float
  | 0, x, _ => some x
  | steps + 1, x, exponent =>
    if exponent.natAbs ≤ 308 then
      if exponent ≥ 0 then
        let scaled := x * power exponent.natAbs
        if scaled.isInf then none else some scaled
      else some (x / power exponent.natAbs)
    else if x == 0 then some x
    else if exponent ≥ 0 then none
    else scale steps (x / power 308) (exponent + 308)

/-- The number of digits and a power of ten. -/
def ofParts (positive : Bool) (digits : Nat) (exponent : Int) (cursor : Cursor) : Except Error (Number × Cursor) :=
  match scale 8 (Float.ofNat digits) exponent with
  | some x => .ok (ofFloat positive x, cursor)
  | none => cursor.here .numberOutOfRange

/-- Adds digits to a value as long as it fits in 64 bits; also answers how many were added. -/
def gather : List UInt8 → Nat → Nat × Nat
  | [], value => (value, 0)
  | digit :: rest, value =>
    let next := value * 10 + (digit.toNat - 48)
    if next < Nat.pow 2 64 then
      let (result, count) := gather rest next
      (result, count + 1)
    else (value, 0)

/-- The digits that are next. -/
def digitsAt (cursor : Cursor) : List UInt8 := cursor.rest.takeWhile Cursor.isDigit

/-- Reads the digits of an exponent; nothing if they do not fit in 32 bits with a sign. -/
def exponentDigits : List UInt8 → Nat → Cursor → Option Nat × Cursor
  | [], value, cursor => (some value, cursor)
  | digit :: rest, value, cursor =>
    let next := value * 10 + (digit.toNat - 48)
    if next < Nat.pow 2 31 then exponentDigits rest next cursor.step else (none, cursor.step)

/-- Reads an exponent, from its letter on. -/
def exponent (positive : Bool) (digits : Nat) (start : Int) (cursor : Cursor) : Except Error (Number × Cursor) :=
  let letter := cursor.step
  let (up, cursor) := match letter.peek? with
    | some '+' => (true, letter.step)
    | some '-' => (false, letter.step)
    | _ => (true, letter)
  match cursor.peek? with
  | none => cursor.here .endInValue
  | some _ =>
    if cursor.atDigit then
      match exponentDigits (digitsAt cursor) 0 cursor with
      | (some value, cursor) => ofParts positive digits (if up then start + value else start - value) cursor
      | (none, cursor) =>
        if digits ≠ 0 && up then cursor.here .numberOutOfRange
        else .ok (ofFloat positive 0, cursor.dropWhile Cursor.isDigit)
    else cursor.step.here .invalidNumber

/-- Goes on with an exponent, or ends the number. -/
def afterDigits (positive : Bool) (digits : Nat) (start : Int) (cursor : Cursor) : Except Error (Number × Cursor) :=
  match cursor.peek? with
  | some 'e' => exponent positive digits start cursor
  | some 'E' => exponent positive digits start cursor
  | _ => ofParts positive digits start cursor

/-- Reads a fraction, from the point on. -/
def fraction (positive : Bool) (digits : Nat) (start : Int) (cursor : Cursor) : Except Error (Number × Cursor) :=
  let point := cursor.step
  let (value, count) := gather (digitsAt point) digits
  let cursor := Cursor.advance count point
  if cursor.atDigit then afterDigits positive value (start - count) (cursor.dropWhile Cursor.isDigit)
  else if count = 0 then
    match cursor.peek? with
    | some _ => cursor.ahead .invalidNumber
    | none => cursor.ahead .endInValue
  else afterDigits positive value (start - count) cursor

/-- Goes on after the digits of an integer of which a number of digits did not fit. -/
def afterInteger (positive : Bool) (value surplus : Nat) (cursor : Cursor) : Except Error (Number × Cursor) :=
  match cursor.peek? with
  | some '.' => fraction positive value surplus cursor
  | some 'e' => exponent positive value surplus cursor
  | some 'E' => exponent positive value surplus cursor
  | _ => if surplus = 0 then .ok (ofMagnitude positive value, cursor) else ofParts positive value surplus cursor

/-- Reads a number after its sign. -/
def read (positive : Bool) (cursor : Cursor) : Except Error (Number × Cursor) :=
  match cursor.peek? with
  | none => cursor.here .endInValue
  | some '0' =>
    if cursor.step.atDigit then cursor.step.ahead .invalidNumber else afterInteger positive 0 0 cursor.step
  | some _ =>
    if cursor.atDigit then
      let (value, count) := gather (digitsAt cursor) 0
      let cursor := Cursor.advance count cursor
      let surplus := (digitsAt cursor).length
      afterInteger positive value surplus (cursor.dropWhile Cursor.isDigit)
    else cursor.step.here .invalidNumber

end Number

end OverlayHost.Json
