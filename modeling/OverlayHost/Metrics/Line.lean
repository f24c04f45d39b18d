import OverlayHost.Decimal.Fixed
import OverlayHost.Metrics.Recording

/-!
# Lines for a metrics server

A metric as one line: the name after a common stem, and one step of a counter or a time in milliseconds with three places.
-/

set_option autoImplicit false

namespace OverlayHost.Metrics

/-- The milliseconds of a span as a double: its whole seconds and its nanoseconds are brought together first. -/
def milliseconds (span : Duration) : Float :=
  let seconds := Float.ofNat (span.nanoseconds / 1000000000)
  let rest := Float.ofNat (span.nanoseconds % 1000000000)
  (seconds + rest / 1000000000.0) * 1000.0

/-- The line of a metric. -/
def Metric.line (stem : String) : Metric → String
  | .counter name => s!"{stem}{name}:1|c"
  | .duration name span => s!"{stem}{name}:{Decimal.fixed 3 (milliseconds span)}|ms"

end OverlayHost.Metrics
