import OverlayHost.Cycle

/-!
# Poll cycles after a script

A world in which planners and enforcer do what they are told and take a known time, so that what a cycle remembers,
calls and measures can be followed. Each planner has one answer until it is given another; the enforcer takes its
answers from a queue and succeeds when that is empty.
-/

set_option autoImplicit false

namespace OverlayHost.Cycle

/-- What a planner answers, and how long it takes. -/
structure ScriptedPlan where
  answer : Except PlannerError RuleSet
  delay : Duration

/-- A script for the planners and the enforcer, and the time that has passed. -/
structure Script where
  plans : List ScriptedPlan
  /-- The next answers of the enforcer. -/
  enforcer : List (Except EnforceError Unit) := []
  enforcerDelay : Duration := Duration.zero
  clock : Duration := Duration.zero

/-- Puts another plan in the place of one, if there is one. -/
def Script.setPlan (script : Script) (index : Nat) (plan : ScriptedPlan) : Script :=
  { script with plans := script.plans.set index plan }

/-- The script as a world; a planner is known by its place in the list. -/
def Script.world : World Nat Script where
  plan index script :=
    match script.plans[index]? with
    | some plan => (plan.answer, { script with clock := script.clock + plan.delay })
    | none => (.error (.failed ""), script)
  enforce _ script :=
    let after := { script with clock := script.clock + script.enforcerDelay, enforcer := script.enforcer.tail }
    (script.enforcer.head?.getD (.ok ()), after)
  now script := script.clock

end OverlayHost.Cycle
