import OverlayHost.Daemon.Arguments
import OverlayHost.Daemon.Start

/-!
# A run of the daemon

From the command line to the code that the daemon exits with and what it reports then. A daemon that has started serves until
it is interrupted, and then exits with success.
-/

set_option autoImplicit false

namespace OverlayHost.Daemon

/-- How a run ends. -/
structure Exit where
  code : UInt32
  /-- What is written about an error. -/
  report : String
deriving DecidableEq, Repr

/-- A run that ends with success. -/
def Exit.success : Exit := ⟨0, ""⟩

variable {m : Type → Type} [Monad m]

/-- Starts a mode from the configuration in a file. -/
def start (host : Host m) (mode : Mode) (path : String) : ExceptT Failure m Unit := do
  let config ← loadConfig host path
  match mode with
  | .policyAgent => discard (startAgent host config)
  | .dnsAdapter => discard (startAdapter host config)

/-- Runs the daemon with the arguments of a command line until it is interrupted. -/
def run (host : Host m) (arguments : List String) : m Exit := do
  match Arguments.parse arguments with
  | .error error => return ⟨2, error.message ++ "\n"⟩
  | .ok .help => return Exit.success
  | .ok (.run mode path) =>
    match ← (start host mode path).run with
    | .error failure => return ⟨1, failure.render⟩
    | .ok () => return Exit.success

end OverlayHost.Daemon
