import OverlayHost.Daemon.Run

/-!
# The daemon as a program

Runs the start of the daemon on this host and exits as it does. Files are read where the start asks for them; no socket is
opened.
-/

set_option autoImplicit false

namespace OverlayHost

/-- What an error of a read says. -/
def readError : IO.Error → ReadError
  | .noFileOrDirectory .. => .notFound
  | .inappropriateType _ 20 _ => .notDirectory
  | .inappropriateType .. => .isDirectory
  | .invalidArgument _ code reason | .permissionDenied _ code reason => .system reason code
  | error => .system (toString error) 5

/-- This host, with its files and no way to any other. -/
def thisHost : Daemon.Host IO where
  read path := do
    try
      let bytes ← IO.FS.readBinFile path
      return .ok bytes.toList
    catch error => return .error (readError error)
  sockets := Net.Sockets.isolated

end OverlayHost

/-- Runs the daemon. -/
def main (arguments : List String) : IO UInt32 := do
  let ending ← OverlayHost.Daemon.run OverlayHost.thisHost arguments
  IO.eprint ending.report
  return ending.code
