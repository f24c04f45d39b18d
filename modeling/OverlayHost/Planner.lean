import OverlayHost.Rule

/-!
# Planners

A planner says what one chain has to hold. The planners of an agent are fixed lists of rules and the default policies
for local and for remote traffic; the latter log what they reject while logging is on.
-/

set_option autoImplicit false

namespace OverlayHost

/-- Why a planner had no answer. -/
inductive PlannerError where
  | failed (message : String)
deriving DecidableEq, Repr

/-- The error in one line. -/
def PlannerError.message : PlannerError → String
  | .failed message => message

/-- A source of the wanted content of one chain. -/
inductive Planner where
  /-- Always the same rules. -/
  | fixed (chain : Chain) (rules : List Rule)
  /-- Replies between the containers of this host, and nothing else. -/
  | localTraffic (chain : Chain) (subnet : String)
  /-- Replies that arrive over the overlay network, and nothing else. -/
  | remoteTraffic (chain : Chain) (vni : Nat)
deriving DecidableEq, Repr

namespace Planner

/-- The chain that a planner plans for. -/
def chain : Planner → Chain
  | .fixed chain _ => chain
  | .localTraffic chain _ => chain
  | .remoteTraffic chain _ => chain

/-- What the chain has to hold, with logging on or off. -/
def plan (logging : Bool) : Planner → RuleSet
  | .fixed chain rules => ⟨chain, rules⟩
  | .localTraffic chain subnet =>
    ⟨chain, Rule.acceptLocal :: (if logging then [Rule.logLocal subnet] else []) ++ [Rule.denyLocal subnet]⟩
  | .remoteTraffic chain vni =>
    ⟨chain, Rule.acceptRemote vni :: (if logging then [Rule.logRemote vni] else []) ++ [Rule.denyRemote vni]⟩

end Planner

end OverlayHost
