import OverlayHost.Text.Excerpt

/-!
# Faults of a TOML document

What a reader answers where a text is no document: the place, what was begun there, and what could stand there instead. A
fault is committed once the text can be read in no other way; the others say only that nothing of a kind starts at a place.
-/

set_option autoImplicit false

namespace OverlayHost.Toml

/-- Why something that is well formed cannot stand where it does. -/
inductive Cause where
  /-- A key is there already; the path of the table is given where it is known. -/
  | duplicateKey (key : String) (table : Option (List String))
  /-- A path leads through something that is no table. -/
  | noTable (path : List String) (kind : String)
  | outOfRange
  | tooDeep
  | tooLarge
  | tooSmall
deriving DecidableEq, Repr

/-- The cause in words. -/
def Cause.message : Cause → String
  | .duplicateKey key none => s!"duplicate key `{key}`"
  | .duplicateKey key (some []) => s!"duplicate key `{key}` in document root"
  | .duplicateKey key (some path) =>
    let owner := ".".intercalate path
    s!"duplicate key `{key}` in table `{owner}`"
  | .noTable path kind =>
    let key := ".".intercalate path
    s!"dotted key `{key}` attempted to extend non-table type ({kind})"
  | .outOfRange => "value is out of range"
  | .tooDeep => "recursion limit exceeded"
  | .tooLarge => "number too large to fit in target type"
  | .tooSmall => "number too small to fit in target type"

/-- What is wrong at a place of a text. -/
structure Fault where
  /-- How many characters follow the place. -/
  left : Nat
  /-- What was begun, if that is known. -/
  label : Option String := none
  /-- What could stand at the place. -/
  expected : List String := []
  cause : Option Cause := none
  committed : Bool := true
deriving DecidableEq, Repr

/-- What comes of reading the start of a text; most readers answer what they find and what is left of the text. -/
abbrev Attempt := Except Fault

namespace Fault

/-- A fault at the start of what is left. -/
def before (rest : List Char) : Fault := { left := rest.length }

/-- Nothing of a kind starts here. -/
def absent (rest : List Char) : Fault := { left := rest.length, committed := false }

/-- Says what was begun, unless that is known more closely. -/
def labelled (fault : Fault) (label : String) : Fault := { fault with label := fault.label.or (some label) }

/-- Says what else could stand at the place. -/
def expecting (fault : Fault) (expected : List String) : Fault := { fault with expected := fault.expected ++ expected }

/-- A fault with its cause. -/
def causedBy (fault : Fault) (cause : Cause) : Fault := { fault with cause := some cause }

/-- The fault in a few lines; there may be nothing to say. -/
def message (fault : Fault) : String :=
  let label := (fault.label.map fun label => s!"invalid {label}").toList
  let expected := if fault.expected.isEmpty then [] else ["expected " ++ ", ".intercalate fault.expected]
  "\n".intercalate (label ++ expected ++ (fault.cause.map Cause.message).toList)

/-- The character at the place, or the end of the text. -/
def span (fault : Fault) : Text.Span := ⟨fault.left, fault.left - 1⟩

end Fault

/-- Reads something that has been begun. -/
def commit {α : Type} (result : Attempt α) : Attempt α :=
  result.mapError fun fault => { fault with committed := true }

/-- Reads something that errors are to name. -/
def label {α : Type} (name : String) (result : Attempt α) : Attempt α :=
  result.mapError (·.labelled name)

end OverlayHost.Toml
