import OverlayHost.Text.Quoted

/-!
# Errors of the control plane

The status that a remote call may end with, and the ways in which a lookup at the control plane may fail.
-/

set_option autoImplicit false

namespace OverlayHost.ControlPlane

/-- The codes with which a remote call may end. -/
inductive Code where
  | ok
  | cancelled
  | unknown
  | invalidArgument
  | deadlineExceeded
  | notFound
  | alreadyExists
  | permissionDenied
  | resourceExhausted
  | failedPrecondition
  | aborted
  | outOfRange
  | unimplemented
  | internal
  | unavailable
  | dataLoss
  | unauthenticated
deriving DecidableEq, Repr, Inhabited

/-- The name of a code. -/
def Code.name : Code → String
  | .ok => "Ok"
  | .cancelled => "Cancelled"
  | .unknown => "Unknown"
  | .invalidArgument => "InvalidArgument"
  | .deadlineExceeded => "DeadlineExceeded"
  | .notFound => "NotFound"
  | .alreadyExists => "AlreadyExists"
  | .permissionDenied => "PermissionDenied"
  | .resourceExhausted => "ResourceExhausted"
  | .failedPrecondition => "FailedPrecondition"
  | .aborted => "Aborted"
  | .outOfRange => "OutOfRange"
  | .unimplemented => "Unimplemented"
  | .internal => "Internal"
  | .unavailable => "Unavailable"
  | .dataLoss => "DataLoss"
  | .unauthenticated => "Unauthenticated"

/-- Every code. -/
def Code.all : List Code :=
  [.ok, .cancelled, .unknown, .invalidArgument, .deadlineExceeded, .notFound, .alreadyExists, .permissionDenied,
    .resourceExhausted, .failedPrecondition, .aborted, .outOfRange, .unimplemented, .internal, .unavailable, .dataLoss,
    .unauthenticated]

/-- The code of a name; a name that is none stands for an unknown error. -/
def Code.ofName (name : String) : Code := (all.find? fun code => code.name = name).getD .unknown

/-- The status with which a remote call ended. -/
structure Status where
  code : Code
  message : String
deriving DecidableEq, Repr

/-- The status in one line. -/
def Status.render (status : Status) : String :=
  let message := Text.quoted status.message
  s!"status: {status.code.name}, message: {message}, details: [], " ++
    "metadata: MetadataMap \x7b headers: \x7b\x7d \x7d"

/-- Why a lookup at the control plane has no address. -/
inductive Error where
  | noTransportSecurity
  | channelClosing
  | invalidAddress (address reason : String)
  | noEndpoints (address : String)
  | transport (cause : String)
  | rpc (status : Status)
  | cancelled
deriving DecidableEq, Repr

/-- The error in one line. -/
def Error.message : Error → String
  | .noTransportSecurity => "no transport security set (use insecure explicitly)"
  | .channelClosing => "the client connection is closing"
  | .invalidAddress address reason => s!"invalid control plane address {address}: {reason}"
  | .noEndpoints address => s!"control plane address {address} resolved to no endpoints"
  | .transport _ => "transport error"
  | .rpc status => status.render
  | .cancelled => "lookup cancelled"

/-- Whether the same lookup may succeed shortly after. -/
def Error.isTransient : Error → Bool
  | .rpc status => status.code = .unavailable || status.code = .deadlineExceeded
  | _ => false

end OverlayHost.ControlPlane
