import OverlayHost.Text.Blank

/-!
# Domain names

Labels with points between them; a point at the end is no part of any label. A name can be asked for if the labels have the
right characters and lengths, and a certificate can be made out to it only under stricter rules, which no number meets.
-/

set_option autoImplicit false

namespace OverlayHost.Net.DomainName

/-- The labels of a name. -/
def labels (name : List Char) : List (List Char) :=
  let parts := Text.splitAtChar '.' name
  if parts.getLast? = some [] then parts.dropLast else parts

/-- The most characters that a label may have. -/
def maxLabel : Nat := 63

/-- The most characters that a name may have. -/
def maxName : Nat := 253

/-- Whether a text can be a label. -/
def isLabel (label : List Char) : Bool :=
  !label.isEmpty && label.length ≤ maxLabel && label.all fun c => c.isAlphanum || c = '-' || c = '_'

/-- Whether the domain name system can be asked for a name; the root alone is one. -/
def isQueryable (name : List Char) : Bool :=
  name = ['.'] ||
    (let parts := labels name
     !parts.isEmpty && parts.all isLabel && name.head? ≠ some '-' && (List.intercalate ['.'] parts).length ≤ maxName)

/-- Whether a label can be part of a certified name. -/
def isCertifiedLabel (label : List Char) : Bool :=
  isLabel label && label.head? ≠ some '-' && label.getLast? ≠ some '-'

/-- Whether a certificate can be made out to a name. -/
def isCertified (name : List Char) : Bool :=
  let parts := labels name
  name.length ≤ maxName && parts.all isCertifiedLabel && parts.getLast?.any fun last => !last.all Char.isDigit

end OverlayHost.Net.DomainName
