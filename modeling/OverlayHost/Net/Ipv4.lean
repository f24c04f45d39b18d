import OverlayHost.Text.Blank
import OverlayHost.Text.Digits

/-!
# IPv4 addresses and networks

Addresses as 32-bit words, read from and written as four decimal numbers, and networks given by an address and the
length of the part that is fixed.
-/

set_option autoImplicit false

namespace OverlayHost.Net

/-- An IPv4 address. -/
structure Ipv4 where
  word : UInt32
deriving DecidableEq, Repr, Inhabited

namespace Ipv4

/-- The address with four given octets. -/
def ofOctets (a b c d : UInt8) : Ipv4 :=
  ⟨a.toUInt32 <<< 24 ||| b.toUInt32 <<< 16 ||| c.toUInt32 <<< 8 ||| d.toUInt32⟩

/-- The octets of an address, the most significant first. -/
def octets (address : Ipv4) : List UInt8 :=
  [(address.word >>> 24).toUInt8, (address.word >>> 16).toUInt8, (address.word >>> 8).toUInt8, address.word.toUInt8]

/-- The four octets in decimal, with points between them. -/
def render (address : Ipv4) : String :=
  ".".intercalate (address.octets.map fun octet => toString octet.toNat)

/-- An octet at the start of a text: one to three digits, at most 255. Only if `padded` may it have zeros in front. -/
def octet? (padded : Bool) (cs : List Char) : Option (UInt8 × List Char) :=
  let digits := cs.takeWhile Char.isDigit
  if digits.isEmpty || digits.length > 3 || Text.decimalValue digits > 255 then none
  else if !padded && digits.length > 1 && digits.head? = some '0' then none
  else some (UInt8.ofNat (Text.decimalValue digits), cs.drop digits.length)

/-- What follows a given character at the start of a text. -/
def after? (expected : Char) : List Char → Option (List Char)
  | c :: rest => if c = expected then some rest else none
  | [] => none

/-- An address at the start of a text, and what follows it. -/
def read? (padded : Bool) (cs : List Char) : Option (Ipv4 × List Char) := do
  let (a, cs) ← octet? padded cs
  let (b, cs) ← octet? padded (← after? '.' cs)
  let (c, cs) ← octet? padded (← after? '.' cs)
  let (d, cs) ← octet? padded (← after? '.' cs)
  return (ofOctets a b c d, cs)

/-- A number in base ten, or after a zero in base eight, or after a zero and an x in base sixteen. -/
def number? : List Char → Option Nat
  | '0' :: 'x' :: digits | '0' :: 'X' :: digits => Text.valueIn? 16 digits
  | '0' :: digits => Text.valueIn? 8 ('0' :: digits)
  | digits => Text.valueIn? 10 digits

/-- The number that parts make: each but the last is an octet, and the last one fills up the bytes that are left. -/
def fill? (left : Nat) : List Nat → Option Nat
  | [] => none
  | [last] => if last < Nat.pow 256 left then some last else none
  | part :: rest =>
    if left > 1 && part < 256 then (fill? (left - 1) rest).map (part * Nat.pow 256 (left - 1) + ·) else none

/-- The address that a text writes in up to four numbers with points between them. -/
def ofParts? (cs : List Char) : Option Ipv4 := do
  let parts ← (Text.splitAtChar '.' cs).mapM number?
  return ⟨UInt32.ofNat (← fill? 4 parts)⟩

/-- The address that a text writes, if it holds nothing else and no octet has a zero in front. -/
def ofString? (s : String) : Option Ipv4 :=
  match read? false s.toList with
  | some (address, []) => some address
  | _ => none

end Ipv4

/-- An IPv4 network. The address may have bits set after the fixed part. -/
structure Network where
  address : Ipv4
  length : Nat
  length_le : length ≤ 32
deriving DecidableEq, Repr

namespace Network

/-- The word whose bits are set where addresses of the network are free. -/
def hostMask (network : Network) : UInt32 := UInt32.ofNat (Nat.pow 2 (32 - network.length) - 1)

/-- The network with the bits after the fixed part cleared. -/
def truncate (network : Network) : Network :=
  { network with address := ⟨network.address.word &&& ~~~network.hostMask⟩ }

/-- The address and the length, with a slash between them. -/
def render (network : Network) : String := s!"{network.address.render}/{network.length}"

/-- The network that a text writes: an address, whose octets may have zeros in front, a slash, and one or two
digits. -/
def ofString? (s : String) : Option Network := do
  let (address, cs) ← Ipv4.read? true s.toList
  let digits ← Ipv4.after? '/' cs
  if digits.isEmpty || digits.length > 2 || !digits.all Char.isDigit then none
  let length := Text.decimalValue digits
  if h : length ≤ 32 then some ⟨address, length, h⟩ else none

end Network

end OverlayHost.Net
