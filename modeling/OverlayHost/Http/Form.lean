import OverlayHost.Text.Blank
import OverlayHost.Text.Digits
import OverlayHost.Text.Utf8

/-!
# Form fields in a query

A query holds fields between ampersands, each a name and a value with an equals sign between them. In both a plus sign is a
blank, and a percent sign with two digits in base sixteen is a byte; one without them stands for itself.
-/

set_option autoImplicit false

namespace OverlayHost.Http.Form

/-- The bytes that percent signs and plus signs stand for. -/
def unescape : List UInt8 → List UInt8
  | 37 :: a :: b :: rest =>
    match Text.hexDigit? a, Text.hexDigit? b with
    | some high, some low => UInt8.ofNat (high * 16 + low) :: unescape rest
    | _, _ => 37 :: unescape (a :: b :: rest)
  | 43 :: rest => 32 :: unescape rest
  | b :: rest => b :: unescape rest
  | [] => []
termination_by bytes => bytes.length

/-- The text that a part of a field stands for. -/
def decode (part : List Char) : String := Text.Utf8.lossy (unescape (String.ofList part).toUTF8.toList)

/-- A field; without an equals sign its value is empty. -/
def field (part : List Char) : String × String :=
  let name := part.takeWhile (· ≠ '=')
  (decode name, decode (part.drop (name.length + 1)))

/-- The fields of a query, in order. -/
def fields (query : String) : List (String × String) :=
  ((Text.splitAtChar '&' query.toList).filter (!·.isEmpty)).map field

/-- A field was given more than once. -/
structure Duplicate where
  name : String
deriving DecidableEq, Repr

/-- Finds the fields of the known names; each may be given once. The first field given again is the duplicate. -/
def pick (known : List String) : List (String × String) → List (String × String) →
    Except Duplicate (List (String × String))
  | found, [] => .ok found
  | found, (name, value) :: rest =>
    if !known.contains name then pick known found rest
    else if (found.lookup name).isSome then .error ⟨name⟩
    else pick known (found ++ [(name, value)]) rest

end OverlayHost.Http.Form
