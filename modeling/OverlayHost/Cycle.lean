import OverlayHost.Enforcer
import OverlayHost.Metrics.Recording
import OverlayHost.Planner

/-!
# The poll cycle

A cycle asks every planner in turn and puts into force what is not in force yet: a rule set that equals the one last
applied to its chain is passed over. The cycle ends at the first error, and what was applied before it is remembered.
Durations are reported by a cycle that ends without error.

The planners and the enforcer of a cycle are a `World`: how a state answers them, and what time it shows.
-/

set_option autoImplicit false

namespace OverlayHost

/-- Why a cycle ended early. -/
inductive CycleError where
  | plan (cause : PlannerError)
  | enforce (cause : EnforceError)
deriving DecidableEq, Repr

/-- The error in one line. -/
def CycleError.message : CycleError → String
  | .plan cause => s!"get-rules: {cause.message}"
  | .enforce cause => s!"enforce: {cause.message}"

namespace Cycle

/-- The rule sets last applied, at most one for a chain. -/
structure Applied where
  sets : List RuleSet

namespace Applied

/-- Nothing has been applied. -/
def empty : Applied := ⟨[]⟩

/-- The rule set last applied to a chain. -/
def last? (applied : Applied) (chain : Chain) : Option RuleSet :=
  applied.sets.find? fun set => set.chain = chain

/-- Remembers a rule set in place of the one for the same chain. -/
def record (applied : Applied) (set : RuleSet) : Applied :=
  ⟨set :: applied.sets.filter fun other => other.chain ≠ set.chain⟩

end Applied

/-- What surrounds a cycle: how a state answers its planners and its enforcer, and the time it shows. -/
structure World (π σ : Type) where
  plan : π → σ → Except PlannerError RuleSet × σ
  enforce : RuleSet → σ → Except EnforceError Unit × σ
  now : σ → Duration

/-- How far a cycle has come. -/
structure Progress (σ : Type) where
  applied : Applied
  state : σ
  /-- The time spent in the enforcer. -/
  spent : Duration := Duration.zero
  /-- The rule sets given to the enforcer, in order. -/
  enforced : List RuleSet := []

/-- The name under which the time spent in the enforcer is reported. -/
def enforceTimeMetric : String := "iptablesEnforceTime"

/-- The name under which the time of a whole cycle is reported. -/
def pollTimeMetric : String := "totalPollTime"

variable {π σ : Type}

/-- Asks the planners one after the other and enforces what has changed, up to the first error. -/
def visit (world : World π σ) : List π → Progress σ → Except CycleError Unit × Progress σ
  | [], progress => (.ok (), progress)
  | planner :: rest, progress =>
    match world.plan planner progress.state with
    | (.error cause, state) => (.error (.plan cause), { progress with state := state })
    | (.ok wanted, state) =>
      if progress.applied.last? wanted.chain = some wanted then
        visit world rest { progress with state := state }
      else
        let enforced := progress.enforced ++ [wanted]
        match world.enforce wanted state with
        | (.error cause, after) => (.error (.enforce cause), { progress with state := after, enforced := enforced })
        | (.ok (), after) =>
          visit world rest
            { applied := progress.applied.record wanted
              state := after
              spent := progress.spent + (world.now after - world.now state)
              enforced := enforced }

/-- What came of a cycle. -/
structure Outcome (σ : Type) where
  result : Except CycleError Unit
  applied : Applied
  state : σ
  enforced : List RuleSet
  metrics : List Metrics.Metric

/-- Runs one cycle. -/
def run (world : World π σ) (planners : List π) (applied : Applied) (state : σ) : Outcome σ :=
  let (result, progress) := visit world planners { applied, state }
  let metrics := match result with
    | .error _ => []
    | .ok () =>
      [.duration enforceTimeMetric progress.spent,
        .duration pollTimeMetric (world.now progress.state - world.now state)]
  { result, applied := progress.applied, state := progress.state, enforced := progress.enforced, metrics }

end Cycle

end OverlayHost
