import OverlayHost.Config.Value
import OverlayHost.Toml.Fault

/-!
# The tree of a TOML document

What has been read of a document: tables in which more may be written, and values that are closed. A table keeps how it
came to be, because that decides whether a header or a dotted key may come back to it. No key is given twice. Keys and
values keep their places, so that what does not fit can be shown where it stands.
-/

set_option autoImplicit false

namespace OverlayHost.Toml

open Config (Value Step)
open Text (Span)

/-- A part of a key, and where it was first written. -/
structure Key where
  name : String
  place : Span
deriving DecidableEq, Repr

/-- Whether a character may stand in a key without quotes. -/
def isBareKeyChar (c : Char) : Bool := c.isAlphanum || c = '_' || c = '-'

/-- A character of a key in double quotes. -/
def escapeKeyChar (c : Char) : List Char :=
  if c = '"' || c = '\\' then ['\\', c]
  else if c = '\x08' then ['\\', 'b']
  else if c = '\t' then ['\\', 't']
  else if c = '\n' then ['\\', 'n']
  else if c = '\x0c' then ['\\', 'f']
  else if c = '\r' then ['\\', 'r']
  else if c.toNat < 0x20 || c.toNat = 0x7F then
    let digits := (Nat.toDigits 16 c.toNat).map Char.toUpper
    ['\\', 'u'] ++ List.replicate (4 - digits.length) '0' ++ digits
  else [c]

/-- A key as a message shows it: bare if it can be, else in double quotes if nothing has to be escaped, else in single
quotes if they can hold it. -/
def writtenKey (name : String) : String :=
  let cs := name.toList
  let isControl (c : Char) : Bool := (c.toNat < 0x20 && c ≠ '\t') || c.toNat = 0x7F
  if !cs.isEmpty && cs.all isBareKeyChar then name
  else if !cs.any fun c => isControl c || c = '\\' || c = '"' then "\"" ++ name ++ "\""
  else if !cs.any fun c => isControl c || c = '\'' then "'" ++ name ++ "'"
  else String.ofList ('"' :: cs.flatMap escapeKeyChar ++ ['"'])

/-- How a table came to be. -/
inductive Origin where
  /-- A header names the table. -/
  | header
  /-- The table was made on the way to one that a header names. -/
  | implied
  /-- The table was made by a dotted key. -/
  | dotted
  /-- The table was written in braces. -/
  | braces
deriving DecidableEq, Repr

/-- A part of a document. -/
inductive Node where
  | scalar (value : Value) (place : Span)
  | list (items : List Node) (place : Span)
  | table (origin : Origin) (place : Option Span) (fields : List (Key × Node))
  /-- The tables under one header in double brackets. -/
  | tables (items : List Node)

/-- The fields of a table. -/
abbrev Fields := List (Key × Node)

mutual

/-- The value of a part of a document. -/
def Node.toValue : Node → Value
  | .scalar value _ => value
  | .list items _ => .sequence (nodeValues items)
  | .table _ _ fields => .table (fieldValues fields)
  | .tables items => .tables (nodeValues items)

/-- The values of several parts. -/
def nodeValues : List Node → List Value
  | [] => []
  | node :: rest => node.toValue :: nodeValues rest

/-- The fields of a table with their values. -/
def fieldValues : List (Key × Node) → List (String × Value)
  | [] => []
  | (key, node) :: rest => (key.name, node.toValue) :: fieldValues rest

end

namespace Node

/-- What a message calls the type of a part. -/
def typeName : Node → String
  | .scalar value _ => value.typeName
  | .list _ _ => "array"
  | .table .braces _ _ => "inline table"
  | .table _ _ _ => "table"
  | .tables _ => "array of tables"

/-- The place of a part that is no list of tables. -/
def ownPlace : Node → Option Span
  | .scalar _ place => some place
  | .list _ place => some place
  | .table _ place _ => place
  | .tables _ => none

/-- Where a part stands. A table that was only implied stands nowhere; tables under one header stand from the first to the
last. -/
def place : Node → Option Span
  | .tables items => do
    let first ← items.head?.bind ownPlace
    let last ← items.getLast?.bind ownPlace
    return ⟨first.start, last.stop⟩
  | node => node.ownPlace

/-- The fields of a table. -/
def fields : Node → Fields
  | .table _ _ fields => fields
  | _ => []

/-- The items of a list. -/
def items : Node → List Node
  | .list items _ => items
  | .tables items => items
  | _ => []

end Node

namespace Fields

/-- The field with a name. -/
def get? (fields : Fields) (name : String) : Option (Key × Node) := fields.find? fun field => field.1.name = name

/-- Replaces what stands under a name. -/
def set (fields : Fields) (name : String) (node : Node) : Fields :=
  fields.map fun field => if field.1.name = name then (field.1, node) else field

/-- Changes the table at the end of a path and answers what the change does; tables that are missing on the way are
made. With `dotted` the path is that of a dotted key, which may not enter a table that a header names or, within braces, one
in braces. The change is told whether its table was made by a dotted key. -/
def changeAt {α : Type} (inBraces dotted : Bool) (change : Bool → Fields → Except Cause (α × Fields))
    (walked : List String) : List Key → Bool → Fields → Except Cause (α × Fields)
  | [], isDotted, fields => change isDotted fields
  | key :: path, _, fields =>
    let walked := walked ++ [key.name]
    match fields.get? key.name with
    | none => do
      let (answer, inner) ← changeAt inBraces dotted change walked path dotted []
      return (answer, fields ++ [(key, .table (if dotted then .dotted else .implied) none inner)])
    | some (_, .table origin place inner) =>
      if origin = .braces && !inBraces then throw (.noTable walked "inline table")
      else if dotted && (origin = .header || origin = .braces) then throw (.duplicateKey key.name none)
      else do
        let (answer, inner) ← changeAt inBraces dotted change walked path (origin = .dotted) inner
        return (answer, fields.set key.name (.table origin place inner))
    | some (_, .tables items) =>
      match items.getLast? with
      | some (.table origin place inner) => do
        let (answer, inner) ← changeAt inBraces dotted change walked path false inner
        return (answer, fields.set key.name (.tables (items.dropLast ++ [.table origin place inner])))
      | _ => throw (.duplicateKey key.name none)
    | some (_, node) => throw (.noTable walked node.typeName)

/-- Writes a value at a dotted key. `owner` is the path of the table, where errors are to name it. -/
def assign (inBraces : Bool) (owner : Option (List String)) (fields : Fields) (path : List Key) (key : Key)
    (node : Node) : Except Cause Fields := do
  let write (isDotted : Bool) (inner : Fields) : Except Cause (Unit × Fields) :=
    -- A key of one part belongs to a table of a header, a key of several to one made by dotted keys.
    if isDotted = path.isEmpty then throw (.duplicateKey key.name none)
    else if (inner.get? key.name).isSome then throw (.duplicateKey key.name owner)
    else return ((), inner ++ [(key, node)])
  return (← fields.changeAt inBraces true write [] path false).2

end Fields

/-- A document being read: the tables that are complete, and the one that lines are added to. -/
structure Builder where
  root : Fields
  current : Fields
  /-- The current table from its header to its last value. -/
  place : Span
  /-- Where the current table belongs; empty for the table that no header names. -/
  path : List Key
  /-- Whether its header has double brackets. -/
  isItem : Bool

namespace Builder

/-- Nothing read yet of a text of some length. -/
def empty (length : Nat) : Builder := ⟨[], [], ⟨length, length⟩, [], false⟩

/-- The path of the current table. -/
def names (builder : Builder) : List String := builder.path.map Key.name

/-- Adds a value to the current table. -/
def assign (builder : Builder) (path : List Key) (key : Key) (node : Node) : Except Cause Builder := do
  let current ← Fields.assign false (some builder.names) builder.current path key node
  let stop := (node.place.map Span.stop).getD builder.place.stop
  return { builder with current, place := ⟨builder.place.start, stop⟩ }

/-- A key of a header that cannot be given again. -/
def taken (path : List Key) (key : Key) : Cause :=
  .duplicateKey (writtenKey key.name) (some (path.map Key.name))

/-- Puts the current table where it belongs. -/
def complete (builder : Builder) : Except Cause Fields :=
  match builder.path.getLast? with
  | none => .ok builder.current
  | some key => do
    let path := builder.path.dropLast
    let table := Node.table .header (some builder.place) builder.current
    let add (_ : Bool) (fields : Fields) : Except Cause (Unit × Fields) :=
      match builder.isItem, fields.get? key.name with
      | true, none => return ((), fields ++ [(key, .tables [table])])
      | true, some (_, .tables items) => return ((), fields.set key.name (.tables (items ++ [table])))
      | false, none => return ((), fields ++ [(key, table)])
      | _, some _ => throw (taken path key)
    return (← Fields.changeAt false false add [] path false builder.root).2

/-- Starts the table of a header in single brackets. A table that was only implied is taken up again. -/
def openTable (builder : Builder) (path : List Key) (key : Key) (place : Span) : Except Cause Builder := do
  let root ← builder.complete
  let take (_ : Bool) (fields : Fields) : Except Cause (Fields × Fields) :=
    match fields.get? key.name with
    | none => return ([], fields)
    | some (_, .table .implied _ inner) => return (inner, fields.filter fun field => field.1.name ≠ key.name)
    | some _ => throw (taken path key)
  let (current, root) ← Fields.changeAt false false take [] path false root
  return ⟨root, current, place, path ++ [key], false⟩

/-- Starts one more table under a header in double brackets. -/
def openItem (builder : Builder) (path : List Key) (key : Key) (place : Span) : Except Cause Builder := do
  let root ← builder.complete
  let reserve (_ : Bool) (fields : Fields) : Except Cause (Unit × Fields) :=
    match fields.get? key.name with
    | none => return ((), fields ++ [(key, .tables [])])
    | some (_, .tables _) => return ((), fields)
    | some _ => throw (taken path key)
  let (_, root) ← Fields.changeAt false false reserve [] path false root
  return ⟨root, [], place, path ++ [key], true⟩

end Builder

/-- The place of what a path leads to. What stands nowhere itself is shown at its key, or at what holds it. -/
def placeOf (outer : Option Span) (node : Node) : List Step → Option Span
  | [] => node.place.or outer
  | .field name :: path =>
    match node.fields.get? name with
    | some (key, child) => placeOf (some key.place) child path
    | none => node.place.or outer
  | .item index :: path =>
    match node.items[index]? with
    | some child => placeOf (node.place.or outer) child path
    | none => node.place.or outer
  | .variant name :: _ =>
    match node.fields.get? name with
    | some (key, _) => some key.place
    | none => node.place.or outer
  | .content name :: path =>
    match node.fields.get? name with
    | some (_, child) => placeOf (node.place.or outer) child path
    | none => node.place.or outer

end OverlayHost.Toml
