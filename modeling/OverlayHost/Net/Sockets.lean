import OverlayHost.Net.HostPort

/-!
# Sockets

What the network of a host allows. A host that is isolated reaches nobody, not even itself. It knows of no address that would
be another host's, and so listens at any IPv4 address.
-/

set_option autoImplicit false

namespace OverlayHost.Net

/-- What the network of a host allows. -/
structure Sockets where
  /-- What keeps a socket from being connected to an address. -/
  connectFault : Address → Option AddressError
  /-- What keeps the host from listening at an address. -/
  listenFault : Address → Option AddressError

namespace Sockets

/-- The network of a host that is isolated. -/
def isolated : Sockets where
  connectFault _ := some .unreachable
  listenFault
    | .ipv4 _ => none
    | .ipv6 address =>
      if address.isUnspecified || address.isMapped then none
      else if address.needsLink then some .unusable
      else some .notLocal

/-- Connects a socket to an address. -/
def connect (sockets : Sockets) (place : HostPort) : Except AddressError HostPort :=
  match sockets.connectFault place.address with
  | some fault => .error fault
  | none => .ok place

/-- Listens at the address that a text names. -/
def listen (sockets : Sockets) (address : String) : Except AddressError HostPort := do
  let place ← HostPort.ofString address
  match sockets.listenFault place.address with
  | some fault => throw fault
  | none => return place

end Sockets

end OverlayHost.Net
