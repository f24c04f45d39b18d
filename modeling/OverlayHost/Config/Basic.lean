import OverlayHost.Config.Value
import OverlayHost.FileContent
import OverlayHost.Net.Ipv4
import OverlayHost.Planner
import OverlayHost.Text.Excerpt

/-!
# The configuration of the agents

The options of the policy agent and of the DNS adapter with their defaults, and the checks that a configuration has to
pass: one for both agents, one more for the DNS adapter. A check answers the first fault in a fixed order.
-/

set_option autoImplicit false

namespace OverlayHost

/-- How much is logged. -/
inductive LogLevel where
  | debug
  | info
  | error
  | fatal
deriving DecidableEq, Repr, Inhabited

namespace LogLevel

/-- Every level, the most talkative first. -/
def all : List LogLevel := [.debug, .info, .error, .fatal]

/-- The name of a level in a configuration. -/
def name : LogLevel → String
  | .debug => "debug"
  | .info => "info"
  | .error => "error"
  | .fatal => "fatal"

/-- The level from which the log shows messages; it has none above errors. -/
def filter : LogLevel → String
  | .debug => "debug"
  | .info => "info"
  | .error => "error"
  | .fatal => "error"

/-- The level of a name. -/
def ofName? (name : String) : Option LogLevel := all.find? fun level => level.name = name

end LogLevel

/-- The options of both agents. An empty control-plane address turns the control plane off. -/
structure Config where
  vipCidr : String := ""
  internalSuffix : String := ""
  sdBaseUrl : String := ""
  sdCaFile : Option String := none
  sdCertFile : Option String := none
  sdKeyFile : Option String := none
  cpAddress : String := ""
  cpCaFile : Option String := none
  cpCertFile : Option String := none
  cpKeyFile : Option String := none
  cpTimeoutMillis : Nat := 5000
  pollIntervalMillis : Nat := 1000
  planners : List Planner := []
  logging : Bool := false
  metricsAddress : Option String := none
  metricsStem : String := ""
  logLevel : LogLevel := .info
  debugServerAddress : String := "127.0.0.1:22222"
  dnsAdapterAddress : String := "127.0.0.1:8053"

namespace Config

/-- What keeps a text from being a configuration. -/
inductive ParseCause where
  /-- The text is not a document of its format; what is wrong may go without saying. -/
  | malformed (message : String)
  | schema (cause : SchemaError)
deriving DecidableEq, Repr

/-- The cause in words. -/
def ParseCause.message : ParseCause → String
  | .malformed message => message
  | .schema cause => cause.message

/-- Why the text of a configuration is none, and the place that shows it. -/
structure ParseError where
  cause : ParseCause
  excerpt : Option Text.Excerpt
deriving DecidableEq, Repr

/-- The error as it is shown: over several lines, and with a line break at the end. -/
def ParseError.message (error : ParseError) : String :=
  match error.excerpt with
  | some excerpt => excerpt.render "TOML parse error" error.cause.message
  | none => error.cause.message ++ "\n"

/-- Why there is no usable configuration. -/
inductive Error where
  | read (path : String) (cause : ReadError)
  | parse (cause : ParseError)
  | invalidCidr (value reason : String)
  | missing (option : String)
  | zeroPollInterval
  | invalidChain (name : String)
deriving DecidableEq, Repr

/-- The error in words. -/
def Error.message : Error → String
  | .read path cause => s!"reading config {Text.quoted path}: {cause.message}"
  | .parse cause => s!"parsing config: {cause.message}"
  | .invalidCidr value reason => s!"invalid vip_cidr {Text.quoted value}: {reason}"
  | .missing option => s!"missing required option: {option}"
  | .zeroPollInterval => "poll_interval_ms must be greater than zero"
  | .invalidChain name => s!"invalid chain name {Text.quoted name}: must be non-empty ASCII"

/-- What is wrong with a text that is no network. -/
def cidrReason : String := "invalid IP address syntax"

/-- The network that VIPs are drawn from, without the bits after its fixed part. -/
def vipNetwork (config : Config) : Except Error Net.Network :=
  match Net.Network.ofString? config.vipCidr with
  | some network => .ok network.truncate
  | none => .error (.invalidCidr config.vipCidr cidrReason)

/-- Whether a control plane is configured. -/
def hasControlPlane (config : Config) : Bool := config.cpAddress ≠ ""

/-- Whether generations can be named by a stem: it is not empty and ASCII only. -/
def isChainStem (stem : String) : Bool :=
  stem ≠ "" && stem.toList.all fun c => c.toNat < 128

/-- The checks that both agents make. -/
def validate (config : Config) : Except Error Unit := do
  if config.pollIntervalMillis = 0 then throw .zeroPollInterval
  if config.vipCidr ≠ "" then discard config.vipNetwork
  match config.planners.find? fun planner => !isChainStem planner.chain.stem with
  | some planner => throw (.invalidChain planner.chain.stem)
  | none => return ()

/-- The options that the DNS adapter needs, in the order in which they are asked for, and whether each is given.
Those of the control plane are needed only with an address. -/
def dnsAdapterOptions (config : Config) : List (String × Bool) :=
  [("vip_cidr", decide (config.vipCidr ≠ "")),
    ("internal_apps_suffix", decide (config.internalSuffix ≠ "")),
    ("sd_base_url", decide (config.sdBaseUrl ≠ "")),
    ("sd_ca_file", config.sdCaFile.isSome),
    ("sd_client_cert_file", config.sdCertFile.isSome),
    ("sd_client_key_file", config.sdKeyFile.isSome)] ++
  if config.hasControlPlane then
    [("cp_ca_file", config.cpCaFile.isSome),
      ("cp_client_cert_file", config.cpCertFile.isSome),
      ("cp_client_key_file", config.cpKeyFile.isSome)]
  else []

/-- The check that the DNS adapter makes: the first option that it needs and that is not given is missing. -/
def validateDnsAdapter (config : Config) : Except Error Unit :=
  match config.dnsAdapterOptions.find? fun option => !option.2 with
  | some (name, _) => .error (.missing name)
  | none => .ok ()

end Config

end OverlayHost
