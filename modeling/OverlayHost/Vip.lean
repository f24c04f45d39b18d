import OverlayHost.Digest.Sha256
import OverlayHost.Net.Ipv4

/-!
# Addresses for names

A name is given an address in a network by its digest: the network's fixed bits, and after them the bits of the first
four digest bytes at the same places. So every host gives a name the same address.
-/

set_option autoImplicit false

namespace OverlayHost.Vip

/-- The octet that has the bits of a wildcard from one byte and the other bits from another one. -/
def mixed (wildcard free fixed : UInt8) : UInt8 := (free &&& wildcard) ||| (fixed &&& ~~~wildcard)

/-- An octet of the address in a network that has its free bits from bytes. -/
def octet (network : Net.Network) (bytes : List UInt8) (i : Nat) : UInt8 :=
  let base := network.truncate
  mixed ((Net.Ipv4.mk base.hostMask).octets.getD i 0) (bytes.getD i 0) (base.address.octets.getD i 0)

/-- The address in a network that has its free bits from the first four bytes, octet by octet. -/
def place (network : Net.Network) (bytes : List UInt8) : Net.Ipv4 :=
  .ofOctets (octet network bytes 0) (octet network bytes 1) (octet network bytes 2) (octet network bytes 3)

/-- The address of a name under a digest function. -/
def ofName (digest : List UInt8 → List UInt8) (network : Net.Network) (name : String) : Net.Ipv4 :=
  place network (digest name.toUTF8.toList)

/-- The address of a name by its SHA-256 digest. -/
def get (network : Net.Network) (name : String) : Net.Ipv4 := ofName Digest.Sha256.digest network name

end OverlayHost.Vip
