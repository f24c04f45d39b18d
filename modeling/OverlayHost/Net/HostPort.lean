import OverlayHost.Net.DomainName
import OverlayHost.Net.Ipv6

/-!
# Hosts with a port

Texts of the form `host:port`, where the host is an address or a name. The only name that is known is that of this host; for
any other one nobody answers.
-/

set_option autoImplicit false

namespace OverlayHost.Net

/-- The address of a host. -/
inductive Address where
  | ipv4 (address : Ipv4)
  | ipv6 (address : Ipv6)
deriving DecidableEq, Repr

/-- Why a text leads to no address, or an address to no socket. -/
inductive AddressError where
  | noPort
  | badPort
  /-- The host holds a character that no text for the system may hold. -/
  | nulInHost
  | unknownHost
  /-- The host has a name, but nobody answers the question for its address. -/
  | noAnswer
  /-- The address is one, but there is no way to it. -/
  | unreachable
  /-- The address is one, but not of the kind that a socket is for. -/
  | otherFamily
  /-- The address is one, but not of this host. -/
  | notLocal
  /-- The address is none that a host could have. -/
  | unusable
deriving DecidableEq, Repr

/-- The error in words. -/
def AddressError.message : AddressError → String
  | .noPort => "invalid socket address"
  | .badPort => "invalid port value"
  | .nulInHost => "file name contained an unexpected NUL byte"
  | .unknownHost => "failed to lookup address information: Name or service not known"
  | .noAnswer => "failed to lookup address information: Temporary failure in name resolution"
  | .unreachable => "Network is unreachable (os error 101)"
  | .otherFamily => "Address family not supported by protocol (os error 97)"
  | .notLocal => "Cannot assign requested address (os error 99)"
  | .unusable => "Invalid argument (os error 22)"

namespace Address

/-- The address by which a host reaches itself. -/
def loopback : Address := .ipv4 (.ofOctets 127 0 0 1)

/-- The address of a host that is given as text. -/
def ofHost (host : List Char) : Except AddressError Address :=
  if host.map Char.toLower = "localhost".toList then .ok loopback
  else
    match Ipv4.ofParts? host with
    | some address => .ok (.ipv4 address)
    | none =>
      match Ipv6.ofZoned? host with
      | some address => .ok (.ipv6 address)
      | none => .error (if DomainName.isQueryable host then .noAnswer else .unknownHost)

end Address

/-- An address and a port. -/
structure HostPort where
  address : Address
  port : UInt16
deriving DecidableEq, Repr

namespace HostPort

/-- The unsigned number of sixteen bits that decimal digits write, with or without a plus sign. -/
def number16? (cs : List Char) : Option UInt16 :=
  let digits := match cs with
    | '+' :: rest => rest
    | cs => cs
  match Text.valueIn? 10 digits with
  | some n => if n < 65536 then some (UInt16.ofNat n) else none
  | none => none

/-- Splits a text at its last colon. -/
def splitLast? (cs : List Char) : Option (List Char × List Char) :=
  let port := (cs.reverse.takeWhile (· ≠ ':')).reverse
  if port.length = cs.length then none
  else some (cs.take (cs.length - port.length - 1), port)

/-- The text between the brackets around a host. -/
def bracketed? (host : List Char) : Option (List Char) :=
  match host, host.getLast? with
  | '[' :: rest, some ']' => some rest.dropLast
  | _, _ => none

/-- An IPv6 address in brackets, with a port that has no sign. -/
def ofBrackets? (host port : List Char) : Option HostPort := do
  let address ← Ipv6.ofZoned? (← bracketed? host)
  if port.head? = some '+' then none
  return ⟨.ipv6 address, ← number16? port⟩

/-- The host and the port that a text names. -/
def ofString (s : String) : Except AddressError HostPort :=
  match splitLast? s.toList with
  | none => .error .noPort
  | some (host, port) =>
    match ofBrackets? host port with
    | some place => .ok place
    | none =>
      match number16? port with
      | none => .error .badPort
      | some port =>
        if host.contains '\x00' then .error .nulInHost
        else (Address.ofHost host).map fun address => ⟨address, port⟩

end HostPort

end OverlayHost.Net
