import OverlayHost.Cycle
import OverlayHost.Filter.Memory

/-!
# A policy agent on a filter in memory

The poll cycle over the planners of a configuration, the enforcer and a packet filter kept in memory. The clock of the
generations is scripted: it shows a reading and moves on by a fixed step each time it is read. No time passes for the
metrics, since nothing here waits.
-/

set_option autoImplicit false

namespace OverlayHost

/-- All that the agent works on. -/
structure PolicyAgent where
  planners : List Planner
  memory : Filter.Memory := Filter.Memory.initial
  /-- The next reading of the clock, in seconds. -/
  clock : Nat
  /-- What the clock moves on by at each reading. -/
  clockStep : Nat := 0
  logging : Bool := false
  applied : Cycle.Applied := Cycle.Applied.empty
  metrics : List Metrics.Metric := []

namespace PolicyAgent

/-- The agent as the host of the enforcer's program. -/
def host : Filter.Host PolicyAgent where
  perform agent call :=
    let (reply, memory) := agent.memory.perform call
    (reply, { agent with memory })
  now agent := (agent.clock, { agent with clock := agent.clock + agent.clockStep })

/-- Puts a rule set into force. -/
def enforce (set : RuleSet) (agent : PolicyAgent) : Except EnforceError Unit × PolicyAgent :=
  (Enforcer.enforce set).run host agent

/-- The agent as the world of a poll cycle: a planner reads the logging flag when it is asked. -/
def world : Cycle.World Planner PolicyAgent where
  plan planner agent := (.ok (planner.plan agent.logging), agent)
  enforce := enforce
  now _ := Duration.zero

/-- Runs one poll cycle. -/
def cycle (agent : PolicyAgent) : Except CycleError Unit × PolicyAgent :=
  let outcome := Cycle.run world agent.planners agent.applied agent
  (outcome.result,
    { outcome.state with applied := outcome.applied, metrics := agent.metrics ++ outcome.metrics })

/-- A new agent over the same filter, which remembers nothing. -/
def restart (agent : PolicyAgent) : PolicyAgent := { agent with applied := Cycle.Applied.empty }

end PolicyAgent

end OverlayHost
