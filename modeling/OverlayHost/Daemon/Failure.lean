import OverlayHost.Config.Basic
import OverlayHost.ControlPlane.Error
import OverlayHost.Discovery.Lookup
import OverlayHost.Metrics.Socket

/-!
# Failures of the start

The ways in which the daemon may fail to start, and how a failure is shown: in one line, and after it the causes that it has
beyond what that line says.
-/

set_option autoImplicit false

namespace OverlayHost.Daemon

/-- Why the daemon could not start. -/
inductive Failure where
  | config (cause : Config.Error)
  | metrics (cause : Metrics.ConnectError)
  /-- An option that the mode needs is not set. -/
  | requiredKey (key : String)
  /-- The TLS material of a client could not be loaded. -/
  | material (client : String) (cause : Tls.Error)
  | discovery (cause : Discovery.Error)
  | controlPlane (address : String) (cause : ControlPlane.Error)
  | serve (cause : Net.AddressError)
deriving DecidableEq, Repr

/-- What lies behind an error of TLS material. -/
def tlsCauses : Tls.Error → List String
  | .read _ cause => [cause.message]
  | .pem fault => [fault.message]
  | _ => []

namespace Failure

/-- The failure in words. -/
def message : Failure → String
  | .config cause => cause.message
  | .metrics cause => cause.message
  | .requiredKey key => s!"missing required configuration key {key}"
  | .material client _ => s!"loading {client} client material"
  | .discovery cause => cause.message
  | .controlPlane address _ => s!"connecting to control plane at {address}"
  | .serve cause => cause.message

/-- What lies behind the failure, from the nearest to the farthest. -/
def causes : Failure → List String
  | .config (.read _ cause) => [cause.message]
  | .config (.parse cause) => [cause.message]
  | .config _ => []
  | .metrics cause => [cause.cause.message]
  | .requiredKey _ => []
  | .material _ cause => cause.message :: tlsCauses cause
  | .discovery (.tls cause) => tlsCauses cause
  | .discovery _ => []
  | .controlPlane _ (.transport cause) => [(ControlPlane.Error.transport cause).message, cause]
  | .controlPlane _ cause => [cause.message]
  | .serve _ => []

/-- A text under a margin, which its first line has with a mark in it. -/
def indented (mark margin text : String) : String :=
  mark ++ ("\n" ++ margin).intercalate (text.splitOn "\n")

/-- The lines for the causes; several are numbered. -/
def causeLines : List String → List String
  | [] => []
  | [cause] => ["", "Caused by:", indented "    " "    " cause]
  | causes => "" :: "Caused by:" :: causes.zipIdx.map fun (cause, n) =>
    let number := toString n
    let mark := String.ofList (List.replicate (5 - number.length) ' ') ++ number ++ ": "
    indented mark "       " cause

/-- The failure as it is shown. -/
def render (failure : Failure) : String :=
  String.join ((s!"Error: {failure.message}" :: causeLines failure.causes).map (· ++ "\n"))

end Failure

end OverlayHost.Daemon
