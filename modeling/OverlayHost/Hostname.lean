import OverlayHost.Text.Blank
import OverlayHost.Text.Utf8

/-!
# Hostnames

The canonical spelling of a hostname: without blanks around it, in lower case as far as ASCII goes, and with a dot at the
end. Two spellings of a name have the same canonical one.
-/

set_option autoImplicit false

namespace OverlayHost.Hostname

/-- The list with a dot at its end. -/
def withDot (cs : List Char) : List Char := if cs.getLast? = some '.' then cs else cs ++ ['.']

/-- The canonical spelling of a hostname. -/
def canonical (name : String) : String := String.ofList (withDot ((Text.trim name).toList.map Char.toLower))

/-- The canonical spelling of a suffix, without the dots at its start. -/
def canonicalSuffix (suffix : String) : String := String.ofList ((canonical suffix).toList.dropWhile (· = '.'))

/-- Whether the bytes of a name end with those of the suffix, and the byte in front of these is a dot. -/
def isUnder (suffix name : String) : Bool :=
  let tail := Text.Utf8.encode suffix.toList
  let bytes := Text.Utf8.encode name.toList
  if h : tail.length < bytes.length then
    tail.isSuffixOf bytes && bytes[bytes.length - tail.length - 1] = '.'.toUInt8
  else false

end OverlayHost.Hostname
