import OverlayHost.Net.Sockets

/-!
# The socket to a metrics server

Metrics are sent to one address. It has to name a host and a port; the host has to have an IPv4 address, for the socket is for
these, and there has to be a way to it.
-/

set_option autoImplicit false

namespace OverlayHost.Metrics

/-- Why metrics cannot be sent to an address. -/
structure ConnectError where
  address : String
  cause : Net.AddressError
deriving DecidableEq, Repr

/-- The error in one line. -/
def ConnectError.message (error : ConnectError) : String :=
  s!"connecting metrics socket to {error.address}: {error.cause.message}"

/-- The place that a text names, if a socket for IPv4 can be connected to it. -/
def target (sockets : Net.Sockets) (address : String) : Except Net.AddressError Net.HostPort := do
  let place ← Net.HostPort.ofString address
  match place.address with
  | .ipv6 _ => throw .otherFamily
  | .ipv4 _ => sockets.connect place

/-- Connects a socket to an address. -/
def connect (sockets : Net.Sockets) (address : String) : Except ConnectError Net.HostPort :=
  (target sockets address).mapError fun cause => ⟨address, cause⟩

end OverlayHost.Metrics
