import OverlayHost.ControlPlane.Error
import OverlayHost.Net.HostPort
import OverlayHost.RoundRobin
import OverlayHost.Shutdown
import OverlayHost.Tls.Material

/-!
# The client of the control plane

A client holds one channel for each endpoint and gives its calls to them in turn, until it is closed. A call that was begun
before the closing is not touched by it; it ends with the answer of the server, at its deadline, or when the shutdown signal
is set, whichever comes first.
-/

set_option autoImplicit false

namespace OverlayHost.ControlPlane

/-- How the control plane is to be reached. -/
structure Settings where
  address : String
  tls : Option Tls.Material
  /-- Whether to do without transport security. -/
  insecure : Bool

/-- A client; it holds no channels once it is closed. -/
structure Client (ε : Type) where
  channels : Option (RoundRobin ε)
  /-- How long a call may take. -/
  timeout : Duration

/-- What a call meets with. -/
structure Call (ε : Type) where
  /-- When the call begins. -/
  start : Duration
  /-- What an endpoint answers, and after how long; there may be no answer at all. -/
  fate : ε → Option (Duration × Except Status String)
  shutdown : Shutdown.Moment
  /-- Whether the shutdown signal comes first if it is set when the call begins. -/
  signalFirst : Bool
  /-- Whether the shutdown signal comes first if it is set when the call would end. -/
  signalLast : Bool

/-- The status of a call that is not answered in time. -/
def lateStatus : Status := ⟨.deadlineExceeded, "control plane call timed out"⟩

/-- When a call ends by itself, and with what. -/
def Call.concluded {ε : Type} (call : Call ε) (timeout : Duration) (endpoint : ε) :
    Duration × Except Status String :=
  match call.fate endpoint with
  | some (delay, answer) =>
    if delay ≤ timeout then (call.start + delay, answer) else (call.start + timeout, .error lateStatus)
  | none => (call.start + timeout, .error lateStatus)

/-- What comes of a call that is given to an endpoint. -/
def Call.result {ε : Type} (call : Call ε) (timeout : Duration) (endpoint : ε) : Except Error String :=
  if call.shutdown.precedes call.start call.signalFirst then .error .cancelled
  else
    let (ending, answer) := call.concluded timeout endpoint
    if call.shutdown.precedes ending call.signalLast then .error .cancelled else answer.mapError Error.rpc

namespace Client

variable {ε : Type}

/-- The host of an address, without brackets. -/
def hostOf (address : String) : List Char :=
  match Net.HostPort.splitLast? address.toList with
  | some (host, _) => (Net.HostPort.bracketed? host).getD host
  | none => []

/-- Whether a certificate can be made out to a host. -/
def isServerName (host : List Char) : Bool :=
  Net.DomainName.isCertified host || (Net.Ipv4.ofString? (String.ofList host)).isSome || (Net.Ipv6.ofChars? host).isSome

/-- Why the material of a client is of no use for a host: it may trust nobody, but needs a certificate and a key, and then
a host that a certificate can be made out to. -/
def refusal? (host : List Char) (material : Tls.Material) : Option String :=
  match (Tls.Pem.read material.authorities).fault with
  | some fault => some fault.message
  | none =>
    if (Tls.Pem.read material.certificate).fault.isSome then some "Error parsing TLS certificate."
    else if (Tls.Material.requireKey material.key).toOption.isNone then
      some "Error parsing TLS private key - no RSA or PKCS8-encoded keys found."
    else if !(Tls.Pem.read material.certificate).labels.contains Tls.Material.certificateLabel then
      some "peer sent no certificates"
    else if isServerName host then none
    else some "invalid dns name"

/-- Makes a client for the endpoints of an address; nothing is sent. -/
def connect (settings : Settings) (timeout : Duration) : Except Error (Client Net.HostPort) := do
  if settings.tls.isNone && !settings.insecure then throw .noTransportSecurity
  if !settings.address.toList.contains ':' then throw (.invalidAddress settings.address "expected host:port")
  let endpoint ← (Net.HostPort.ofString settings.address).mapError fun cause =>
    .invalidAddress settings.address cause.message
  match settings.tls.bind (refusal? (hostOf settings.address)) with
  | some cause => throw (.transport cause)
  | none => pure ()
  return { channels := some (.ofList [endpoint]), timeout }

/-- Asks for an address. -/
def ip (client : Client ε) (call : Call ε) : Except Error String × Client ε :=
  match client.channels with
  | none => (.error .channelClosing, client)
  | some rotation =>
    let (endpoint, rotation) := rotation.next
    let after := { client with channels := some rotation }
    match endpoint with
    | none => (.error .channelClosing, after)
    | some endpoint => (call.result client.timeout endpoint, after)

/-- Gives the channels up; that can be done once. -/
def close (client : Client ε) : Except Error Unit × Client ε :=
  match client.channels with
  | none => (.error .channelClosing, client)
  | some _ => (.ok (), { client with channels := none })

end Client

end OverlayHost.ControlPlane
