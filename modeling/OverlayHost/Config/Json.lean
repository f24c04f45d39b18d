import OverlayHost.Config.Value
import OverlayHost.Json.Decode

/-!
# Configurations in JSON

A JSON text as a value of a configuration document. The fields of a table are in the order of their names, and of two fields
with one name the last one counts.
-/

set_option autoImplicit false

namespace OverlayHost.Config.Value

/-- Puts a field where it belongs by its name, in place of one with that name. -/
def insertField (name : String) (value : Value) : List (String × Value) → List (String × Value)
  | [] => [(name, value)]
  | (other, old) :: rest =>
    if name < other then (name, value) :: (other, old) :: rest
    else if name = other then (name, value) :: rest
    else (other, old) :: insertField name value rest

/-- The table that fields make. -/
def ofPairs (pairs : List (String × Value)) : Value :=
  .table (pairs.foldl (fun fields (name, value) => insertField name value fields) [])

/-- The value of a number. -/
def ofNumber : Json.Number → Value
  | .integer value => .integer value
  | .float value => .float value

/-- Reads a value that is nested in a number of levels at most. -/
def json : Nat → Json.Decoder Value
  | 0 => Json.Decoder.mismatch "any value"
  | depth + 1 => fun cursor => do
    let (c, start) ← Json.Decoder.first cursor
    match c with
    | 'n' => return (.null, ← start.step.word ['u', 'l', 'l'])
    | 't' => return (.boolean true, ← start.step.word ['r', 'u', 'e'])
    | 'f' => return (.boolean false, ← start.step.word ['a', 'l', 's', 'e'])
    | '"' => return (← Json.Text.read start.step).map Value.text id
    | '[' => return (← Json.Decoder.list (json depth) start).map Value.sequence id
    | '\x7b' => return (← Json.Decoder.object (json depth) start).map ofPairs id
    | '-' => return (← Json.Number.read false start.step).map ofNumber id
    | _ =>
      if start.atDigit then return (← Json.Number.read true start).map ofNumber id
      else Json.Decoder.mismatch "any value" start

/-- The value that a JSON text writes. -/
def ofJson (bytes : List UInt8) : Except Json.Error Value := (json (bytes.length + 1)).run bytes

end OverlayHost.Config.Value
