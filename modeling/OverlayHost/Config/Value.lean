import OverlayHost.Decimal.Notation
import OverlayHost.Text.Quoted

/-!
# Values of a configuration document

The values that a configuration document is made of, and the errors of a document whose values do not fit, with the path
to what does not fit. Both formats in which configurations come, TOML and JSON, are read into these values; they differ in
how a message writes a number with a fraction.
-/

set_option autoImplicit false

namespace OverlayHost.Config

/-- A value of a document. -/
inductive Value where
  | null
  | boolean (value : Bool)
  | integer (value : Int)
  | float (value : Float)
  | text (value : String)
  /-- A date, a time, or both. -/
  | moment (written : String)
  | sequence (items : List Value)
  /-- A list of tables, each under a header of its own. -/
  | tables (items : List Value)
  | table (fields : List (String × Value))
deriving Inhabited

/-- The formats in which a configuration may come. -/
inductive Format where
  | toml
  | json
deriving DecidableEq

/-- What a message calls a value. -/
def Value.describe (format : Format) : Value → String
  | .null => "null"
  | .boolean value => s!"boolean `{value}`"
  | .integer value => s!"integer `{value}`"
  | .float value =>
    let written := match format with
      | .toml => Decimal.inFull value
      | .json => Decimal.general value
    s!"floating point `{written}`"
  | .text value => s!"string {Text.quoted value}"
  | .moment _ => "map"
  | .sequence _ => "sequence"
  | .tables _ => "sequence"
  | .table _ => "map"

/-- What a message calls the type of a value of a TOML document. -/
def Value.typeName : Value → String
  | .null => "none"
  | .boolean _ => "boolean"
  | .integer _ => "integer"
  | .float _ => "float"
  | .text _ => "string"
  | .moment _ => "datetime"
  | .sequence _ => "array"
  | .tables _ => "array of tables"
  | .table _ => "table"

/-- The fields of a table. A date or time counts as a table with one nameless field. -/
def Value.fields? : Value → Option (List (String × Value))
  | .table fields => some fields
  | .moment written => some [("", .text written)]
  | _ => none

/-- How a document fails to fit. -/
inductive SchemaError where
  | wrongType (found expected : String)
  | wrongValue (found expected : String)
  | missingField (name : String)
  | unknownVariant (found : String) (known : List String)
  /-- Neither a text nor a table stands where a variant is chosen. -/
  | notAVariant
  /-- A table that chooses a variant does not have exactly one field. -/
  | variantCount (isEmpty : Bool)
  /-- Something that is neither a table nor a list is the content of a variant without content. -/
  | variantContent (found : String)
  /-- A variant without content was given some. -/
  | variantNotEmpty (isTables : Bool)
deriving DecidableEq, Repr

/-- The error in one line. -/
def SchemaError.message : SchemaError → String
  | .wrongType found expected => s!"invalid type: {found}, expected {expected}"
  | .wrongValue found expected => s!"invalid value: {found}, expected {expected}"
  | .missingField name => s!"missing field `{name}`"
  | .unknownVariant found known =>
    let names := ", ".intercalate (known.map fun name => s!"`{name}`")
    s!"unknown variant `{found}`, expected one of {names}"
  | .notAVariant => "wanted string or table"
  | .variantCount true => "wanted exactly 1 element, found 0 elements"
  | .variantCount false => "wanted exactly 1 element, more than 1 element"
  | .variantContent found => s!"expected table, found {found}"
  | .variantNotEmpty true => "expected empty array"
  | .variantNotEmpty false => "expected empty table"

/-- A step from a value to something in it. -/
inductive Step where
  /-- What stands in the field of a table. -/
  | field (name : String)
  | item (index : Nat)
  /-- The key that chooses a variant. -/
  | variant (name : String)
  /-- What stands under the key that chooses a variant. -/
  | content (name : String)
deriving DecidableEq, Repr

/-- Something in a document that does not fit, and the path to what is to be shown of it. -/
structure Misfit where
  path : List Step
  error : SchemaError
deriving DecidableEq, Repr

namespace Misfit

/-- Reads something where the path begins. -/
def here {α : Type} (result : Except SchemaError α) : Except Misfit α := result.mapError (⟨[], ·⟩)

/-- Reads something that is one step away. -/
def under {α : Type} (step : Step) (result : Except Misfit α) : Except Misfit α :=
  result.mapError fun misfit => { misfit with path := step :: misfit.path }

end Misfit

namespace Value

/-- The error that a value is not what is expected. -/
def mismatch {α : Type} (format : Format) (expected : String) (value : Value) : Except SchemaError α :=
  .error (.wrongType (value.describe format) expected)

/-- The value as a text; `expected` names what is wanted in the error. -/
def toText (format : Format) (expected : String) : Value → Except SchemaError String
  | .text value => .ok value
  | value => value.mismatch format expected

/-- The value as a truth value. -/
def toBoolean (format : Format) : Value → Except SchemaError Bool
  | .boolean value => .ok value
  | value => value.mismatch format "a boolean"

/-- The value as an unsigned number of a width in bits. -/
def toUnsigned (format : Format) (width : Nat) : Value → Except SchemaError Nat
  | .integer value =>
    if 0 ≤ value && value.toNat < Nat.pow 2 width then .ok value.toNat
    else .error (.wrongValue (Value.describe format (.integer value)) s!"u{width}")
  | value => value.mismatch format s!"u{width}"

/-- The value as a list. -/
def toSequence (format : Format) : Value → Except SchemaError (List Value)
  | .sequence items => .ok items
  | .tables items => .ok items
  | value => value.mismatch format "a sequence"

end Value

end OverlayHost.Config
