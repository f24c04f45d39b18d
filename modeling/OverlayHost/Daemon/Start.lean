import OverlayHost.Config.Load
import OverlayHost.ControlPlane.Client
import OverlayHost.Daemon.Failure
import OverlayHost.Resolver

/-!
# Starting the daemon

What either mode does before it serves: the policy agent connects its metrics and listens; the DNS adapter also loads what
its clients need and makes them. The first step that fails ends the start.
-/

set_option autoImplicit false

namespace OverlayHost.Daemon

/-- What the daemon finds on its host. -/
structure Host (m : Type → Type) where
  /-- Reads a file. -/
  read : String → m FileContent
  /-- What its network allows. -/
  sockets : Net.Sockets

/-- A policy agent that is ready to serve. -/
structure AgentReady where
  metrics : Option Net.HostPort
  planners : List Planner
  logging : Bool
  interval : Duration
  address : Net.HostPort

/-- A DNS adapter that is ready to serve. -/
structure AdapterReady where
  metrics : Option Net.HostPort
  resolver : Resolver
  discovery : Discovery.Client
  controlPlane : Option (ControlPlane.Client Net.HostPort)
  address : Net.HostPort

variable {m : Type → Type} [Monad m]

/-- A path that the mode needs. -/
def required (path : Option String) (key : String) : Except Failure String :=
  match path with
  | some path => .ok path
  | none => .error (.requiredKey key)

/-- Connects the metrics, if they have an address. -/
def connectMetrics (sockets : Net.Sockets) (config : Config) : Except Failure (Option Net.HostPort) :=
  match config.metricsAddress with
  | none => .ok none
  | some address => ((Metrics.connect sockets address).map some).mapError Failure.metrics

/-- Listens at an address of this host. -/
def listen (sockets : Net.Sockets) (address : String) : Except Failure Net.HostPort :=
  (sockets.listen address).mapError Failure.serve

/-- Loads the TLS material of a client. -/
def loadMaterial (host : Host m) (client : String) (authorities certificate key : String) :
    ExceptT Failure m Tls.Material := do
  match ← (Tls.Material.load host.read authorities certificate key).run with
  | .ok material => return material
  | .error cause => throw (.material client cause)

/-- Starts the policy agent. -/
def startAgent (host : Host m) (config : Config) : ExceptT Failure m AgentReady := do
  let metrics ← ExceptT.mk (pure (connectMetrics host.sockets config))
  let address ← ExceptT.mk (pure (listen host.sockets config.debugServerAddress))
  return { metrics, planners := config.planners, logging := config.logging
           interval := .ofMillis config.pollIntervalMillis, address }

/-- Makes the client of the control plane, if there is one. -/
def startControlPlane (host : Host m) (config : Config) :
    ExceptT Failure m (Option (ControlPlane.Client Net.HostPort)) := do
  if !config.hasControlPlane then return none
  let authorities ← ExceptT.mk (pure (required config.cpCaFile "cp_ca_file"))
  let certificate ← ExceptT.mk (pure (required config.cpCertFile "cp_client_cert_file"))
  let key ← ExceptT.mk (pure (required config.cpKeyFile "cp_client_key_file"))
  let tls ← loadMaterial host "control plane" authorities certificate key
  let settings : ControlPlane.Settings := { address := config.cpAddress, tls := some tls, insecure := false }
  match ControlPlane.Client.connect settings (.ofMillis config.cpTimeoutMillis) with
  | .ok client => return some client
  | .error cause => throw (.controlPlane config.cpAddress cause)

/-- Makes the client of service discovery. -/
def startDiscovery (host : Host m) (config : Config) : ExceptT Failure m Discovery.Client := do
  let authorities ← ExceptT.mk (pure (required config.sdCaFile "sd_ca_file"))
  let certificate ← ExceptT.mk (pure (required config.sdCertFile "sd_client_cert_file"))
  let key ← ExceptT.mk (pure (required config.sdKeyFile "sd_client_key_file"))
  let tls ← loadMaterial host "service discovery" authorities certificate key
  ExceptT.mk (pure ((Discovery.Client.newTls config.sdBaseUrl tls).mapError Failure.discovery))

/-- Starts the DNS adapter. -/
def startAdapter (host : Host m) (config : Config) : ExceptT Failure m AdapterReady := do
  ExceptT.mk (pure (config.validateDnsAdapter.mapError Failure.config))
  let metrics ← ExceptT.mk (pure (connectMetrics host.sockets config))
  let discovery ← startDiscovery host config
  let network ← ExceptT.mk (pure (config.vipNetwork.mapError Failure.config))
  let controlPlane ← startControlPlane host config
  let address ← ExceptT.mk (pure (listen host.sockets config.dnsAdapterAddress))
  return { metrics, resolver := Resolver.new network config.internalSuffix, discovery, controlPlane, address }

/-- Loads the configuration. -/
def loadConfig (host : Host m) (path : String) : ExceptT Failure m Config := do
  ExceptT.mk (pure ((Config.ofFile path (← host.read path)).mapError Failure.config))

end OverlayHost.Daemon
