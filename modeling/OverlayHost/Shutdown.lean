import OverlayHost.Duration

/-!
# The shutdown signal

A truth value that one side sends and many listen to. A listener sees the value last sent, whether one was sent since it
last looked, and whether the sending side is gone. After that nothing can be sent.
-/

set_option autoImplicit false

namespace OverlayHost

/-- The signal as one listener sees it. -/
structure Shutdown where
  value : Bool := false
  /-- Whether a value was sent since the listener last looked. -/
  unseen : Bool := false
  /-- Whether the sending side is gone. -/
  closed : Bool := false
deriving DecidableEq, Repr

namespace Shutdown

/-- Sends a value, unless the sending side is gone. -/
def send (signal : Shutdown) (value : Bool) : Shutdown :=
  if signal.closed then signal else { signal with value := value, unseen := true }

/-- The sending side goes. -/
def close (signal : Shutdown) : Shutdown := { signal with closed := true }

/-- The listener looks at the value. -/
def look (signal : Shutdown) : Shutdown := { signal with unseen := false }

/-- The moment from which the signal is set for good, if there is one. -/
abbrev Moment := Option Duration

/-- Whether the signal comes before the end of a wait; `first` says who wins if both come at once. -/
def Moment.precedes (moment : Moment) (ending : Duration) (first : Bool) : Bool :=
  match moment with
  | none => false
  | some moment => moment < ending || (moment = ending && first)

/-- When the signal is noticed in a wait that began at some moment and that it interrupts. -/
def Moment.noticed (moment : Moment) (start : Duration) : Duration := max start (Option.getD moment start)

end Shutdown

end OverlayHost
