import OverlayHost.ControlPlane.Error
import OverlayHost.Discovery.Lookup
import OverlayHost.Hostname
import OverlayHost.Vip

/-!
# Resolving hostnames

A name under the suffix of the internal applications has an address of its own, which every host computes. Any other is
asked for at the control plane, if there is one, and else at service discovery. One backend is asked, once, and nothing is
remembered.
-/

set_option autoImplicit false

namespace OverlayHost

/-- Who answers for a name. -/
inductive Route where
  | localVip
  | controlPlane
  | serviceDiscovery
deriving DecidableEq, Repr

/-- What a name resolves to. -/
inductive Answer where
  | vip (address : Net.Ipv4)
  /-- What the control plane sent, as it is. -/
  | controlPlane (address : String)
  | backends (addresses : List Net.Ipv4)
deriving DecidableEq, Repr

/-- The addresses of an answer, in order. -/
def Answer.addresses : Answer → List String
  | .vip address => [address.render]
  | .controlPlane address => [address]
  | .backends addresses => addresses.map Net.Ipv4.render

/-- Why a name could not be resolved. -/
inductive ResolveError where
  | emptyHostname
  | serviceDiscovery (cause : Discovery.Error)
  | controlPlane (cause : ControlPlane.Error)
deriving DecidableEq, Repr

namespace ResolveError

/-- The error in one line. -/
def message : ResolveError → String
  | .emptyHostname => "hostname is empty"
  | .serviceDiscovery cause => s!"could not connect to service discovery controller: {cause.message}"
  | .controlPlane cause => s!"could not connect to control plane: {cause.message}"

/-- Whether the same name may be resolved shortly after. -/
def isTransient : ResolveError → Bool
  | .controlPlane cause => cause.isTransient
  | _ => false

end ResolveError

/-- How a state answers for the two backends; there may be no control plane. -/
structure Backends (σ : Type) where
  serviceDiscovery : String → σ → Except Discovery.Error (List Net.Ipv4) × σ
  controlPlane : Option (String → σ → Except ControlPlane.Error String × σ)

/-- What names are resolved by: the network of the internal applications and their canonical suffix. -/
structure Resolver where
  network : Net.Network
  suffix : String

namespace Resolver

variable {σ : Type}

/-- A resolver for a suffix in any spelling. -/
def new (network : Net.Network) (suffix : String) : Resolver :=
  { network := network.truncate, suffix := Hostname.canonicalSuffix suffix }

/-- Who answers for a canonical name. -/
def route (resolver : Resolver) (hasControlPlane : Bool) (name : String) : Route :=
  if Hostname.isUnder resolver.suffix name then .localVip
  else if hasControlPlane then .controlPlane
  else .serviceDiscovery

/-- Resolves a name in any spelling. -/
def resolve (resolver : Resolver) (backends : Backends σ) (hostname : String) (state : σ) :
    Except ResolveError Answer × σ :=
  let name := Hostname.canonical hostname
  if name = "." then (.error .emptyHostname, state)
  else match resolver.route backends.controlPlane.isSome name, backends.controlPlane with
    | .localVip, _ => (.ok (.vip (Vip.get resolver.network name)), state)
    | .controlPlane, some ask =>
      let (reply, after) := ask name state
      ((reply.map Answer.controlPlane).mapError ResolveError.controlPlane, after)
    | _, _ =>
      let (reply, after) := backends.serviceDiscovery name state
      ((reply.map Answer.backends).mapError ResolveError.serviceDiscovery, after)

end Resolver

end OverlayHost
