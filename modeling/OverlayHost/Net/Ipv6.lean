import OverlayHost.Net.Ipv4

/-!
# IPv6 addresses

Addresses as groups of sixteen bits, read from groups in base sixteen between colons. Two colons in a row stand for one or
more groups that are zero, and the last two groups may be written as an IPv4 address.
-/

set_option autoImplicit false

namespace OverlayHost.Net

/-- An IPv6 address. -/
structure Ipv6 where
  /-- Its eight groups, the most significant first. -/
  groups : List UInt16
deriving DecidableEq, Repr

namespace Ipv6

/-- A group: one to four digits in base sixteen. -/
def group? (cs : List Char) : Option UInt16 :=
  if cs.length > 4 then none else (Text.valueIn? 16 cs).map UInt16.ofNat

/-- The groups that an IPv4 address makes. -/
def groupsOfIpv4 (address : Ipv4) : List UInt16 := [(address.word >>> 16).toUInt16, address.word.toUInt16]

/-- The groups that the last piece of a text makes: one, or the two of an IPv4 address. -/
def lastGroups? (cs : List Char) : Option (List UInt16) :=
  match group? cs with
  | some group => some [group]
  | none => (Ipv4.ofString? (String.ofList cs)).map groupsOfIpv4

/-- The groups that pieces make; only the last piece may be an IPv4 address. -/
def groups? : List (List Char) → Option (List UInt16)
  | [] => some []
  | [last] => lastGroups? last
  | piece :: rest => do return (← group? piece) :: (← groups? rest)

/-- The pieces of a text between colons; an empty text has none. -/
def pieces (cs : List Char) : List (List Char) := if cs.isEmpty then [] else Text.splitAtChar ':' cs

/-- The texts before and after the first two colons in a row. -/
def splitGap? : List Char → Option (List Char × List Char)
  | ':' :: ':' :: rest => some ([], rest)
  | c :: rest => (splitGap? rest).map fun (before, after) => (c :: before, after)
  | [] => none

/-- The address that a text writes. -/
def ofChars? (cs : List Char) : Option Ipv6 :=
  match splitGap? cs with
  | none => do
    let groups ← groups? (pieces cs)
    if groups.length = 8 then some ⟨groups⟩ else none
  | some (before, after) => do
    let front ← (pieces before).mapM group?
    let back ← groups? (pieces after)
    let count := front.length + back.length
    if count < 8 then some ⟨front ++ List.replicate (8 - count) 0 ++ back⟩ else none

/-- The address that a text writes, after which a percent sign and the number of an interface may come. -/
def ofZoned? (cs : List Char) : Option Ipv6 :=
  let zone := cs.dropWhile (· ≠ '%')
  match zone with
  | [] => ofChars? cs
  | _ :: number =>
    match Text.valueIn? 10 number with
    | some n => if n < 4294967296 then ofChars? (cs.takeWhile (· ≠ '%')) else none
    | none => none

/-- Whether an address stands for an IPv4 address. -/
def isMapped (address : Ipv6) : Bool := address.groups.take 6 = [0, 0, 0, 0, 0, 0xFFFF]

/-- Whether an address stands for every address of a host. -/
def isUnspecified (address : Ipv6) : Bool := address.groups.all (· = 0)

/-- Whether an address has a meaning on one link only, or for a group of hosts. -/
def needsLink (address : Ipv6) : Bool :=
  match address.groups with
  | first :: _ => first &&& 0xFFC0 = 0xFE80 || first &&& 0xFF00 = 0xFF00
  | [] => false

end Ipv6

end OverlayHost.Net
