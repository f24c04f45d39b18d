/-!
# Writing JSON

Documents in the order in which they are written, without any blank space between their parts.
-/

set_option autoImplicit false

namespace OverlayHost.Json

/-- A document that is to be written. -/
inductive Document where
  | boolean (value : Bool)
  | number (value : Nat)
  | text (value : String)
  | list (items : List Document)
  | object (members : List (String × Document))

namespace Document

/-- A digit in base sixteen. -/
def hexDigit (n : Nat) : Char := (Nat.toDigits 16 n).headD '0'

/-- One character inside quotes. -/
def escape (c : Char) : List Char :=
  match c with
  | '"' => ['\\', '"']
  | '\\' => ['\\', '\\']
  | '\x08' => ['\\', 'b']
  | '\x0c' => ['\\', 'f']
  | '\n' => ['\\', 'n']
  | '\r' => ['\\', 'r']
  | '\t' => ['\\', 't']
  | c => if c.toNat < 32 then ['\\', 'u', '0', '0', hexDigit (c.toNat / 16), hexDigit (c.toNat % 16)] else [c]

/-- A text in quotes. -/
def quote (s : String) : String := String.ofList ('"' :: s.toList.flatMap escape ++ ['"'])

mutual

/-- The document as text. -/
def render : Document → String
  | boolean value => if value then "true" else "false"
  | number value => toString value
  | text value => quote value
  | list items => "[" ++ ",".intercalate (renderItems items) ++ "]"
  | object members => "\x7b" ++ ",".intercalate (renderMembers members) ++ "\x7d"

/-- Each item as text. -/
def renderItems : List Document → List String
  | [] => []
  | item :: rest => render item :: renderItems rest

/-- Each member as text. -/
def renderMembers : List (String × Document) → List String
  | [] => []
  | (name, value) :: rest => (quote name ++ ":" ++ render value) :: renderMembers rest

end

end Document

end OverlayHost.Json
