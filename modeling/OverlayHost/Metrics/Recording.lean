import OverlayHost.Duration

/-!
# Recorded metrics

A metric is one step of a counter or one measured duration. A recording keeps every metric in the order of its report.
-/

set_option autoImplicit false

namespace OverlayHost.Metrics

/-- One report to a metrics sink. -/
inductive Metric where
  | counter (name : String)
  | duration (name : String) (span : Duration)
deriving DecidableEq, Repr

/-- All metrics reported, in order. -/
abbrev Recording := List Metric

/-- How often a counter was stepped. -/
def Recording.count (recording : Recording) (name : String) : Nat :=
  List.countP (fun metric => metric = .counter name) recording

/-- The durations reported under a name, in order. -/
def Recording.durations (recording : Recording) (name : String) : List Duration :=
  List.filterMap (fun
    | .duration reported span => if reported = name then some span else none
    | .counter _ => none) recording

end OverlayHost.Metrics
