import OverlayHost.Cycle
import OverlayHost.Shutdown

/-!
# The poller

Runs a poll cycle at every tick of an interval, the first one at once, until it is told to stop. Between two cycles it
looks at the shutdown signal before it looks at the tick; a cycle that has begun runs to its end, and one that fails is
followed by the next. A tick that comes late by no more than 5 ms does not move the ticks after it; after a later one
the next comes a whole interval from then.

Time is what the poller is told has passed. `Poller.advance` does all that there is to do until a moment.
-/

set_option autoImplicit false

namespace OverlayHost

/-- What a poller is at. -/
inductive Poller.Phase (σ : Type) where
  /-- It waits for a tick or for the signal. -/
  | waiting
  /-- It is in a cycle, which ends with an outcome at a moment. -/
  | running (outcome : Cycle.Outcome σ) (finish : Duration)
  | stopped

/-- A poller over a world that keeps a state. -/
structure Poller (σ : Type) where
  interval : Duration
  interval_pos : 0 < interval.nanoseconds
  signal : Shutdown
  /-- The state after the cycles that have ended. -/
  state : σ
  /-- What the cycles that have ended remember. -/
  applied : Cycle.Applied := Cycle.Applied.empty
  phase : Poller.Phase σ := .waiting
  /-- The number of cycles begun. -/
  begun : Nat := 0
  now : Duration := Duration.zero
  /-- The moment of the next tick. -/
  due : Duration := Duration.zero

namespace Poller

variable {π σ : Type}

/-- A poller that has done nothing yet. The interval is at least one millisecond. -/
def new (interval : Duration) (signal : Shutdown) (state : σ) : Poller σ :=
  if h : 0 < interval.millis then
    { interval, interval_pos := by simp only [Duration.millis] at h; omega, signal, state }
  else { interval := .ofMillis 1, interval_pos := by decide, signal, state }

/-- How late a tick may be without moving the ticks after it. -/
def tolerance : Duration := .ofMillis 5

/-- The tick after one that was due at a moment and is taken now. -/
def nextTick (interval due now : Duration) : Duration :=
  if due + tolerance < now then now + interval else due + interval

/-- Begins a cycle. -/
def begin (world : Cycle.World π σ) (planners : List π) (now : Duration) (poller : Poller σ) : Poller σ :=
  let outcome := Cycle.run world planners poller.applied poller.state
  { poller with
    now := now
    due := nextTick poller.interval poller.due now
    begun := poller.begun + 1
    phase := .running outcome (now + (world.now outcome.state - world.now poller.state)) }

/-- Ends a cycle. -/
def finish (outcome : Cycle.Outcome σ) (now : Duration) (poller : Poller σ) : Poller σ :=
  { poller with now := now, phase := .waiting, applied := outcome.applied, state := outcome.state }

/-- Ends the poller. -/
def stop (poller : Poller σ) : Poller σ := { poller with phase := .stopped }

/-- How much a poller may still do without time passing. -/
def rank (poller : Poller σ) : Nat :=
  match poller.phase with
  | .running .. => 2
  | .waiting => if poller.signal.unseen then 1 else 0
  | .stopped => 0

/-- A tick that is taken when it is due or later is followed by one that is due after it. -/
theorem due_lt_nextTick (interval due now : Duration) (h : 0 < interval.nanoseconds) (hn : due ≤ now) :
    due.nanoseconds < (nextTick interval due now).nanoseconds := by
  have hn : due.nanoseconds ≤ now.nanoseconds := hn
  unfold nextTick
  split
  · show due.nanoseconds < now.nanoseconds + interval.nanoseconds
    omega
  · show due.nanoseconds < due.nanoseconds + interval.nanoseconds
    omega

/-- Does all that there is to do until a moment. -/
def advance (world : Cycle.World π σ) (planners : List π) (limit : Duration) (poller : Poller σ) : Poller σ :=
  match _hp : poller.phase with
  | .stopped => poller
  | .running outcome ending =>
    if ending ≤ limit then advance world planners limit (poller.finish outcome (max poller.now ending)) else poller
  | .waiting =>
    if _hs : poller.signal.unseen then
      if poller.signal.value then { poller with signal := poller.signal.look }.stop
      else advance world planners limit { poller with signal := poller.signal.look }
    else if poller.signal.closed then poller.stop
    else if _hd : poller.due ≤ limit then
      if poller.signal.value then poller.stop
      else advance world planners limit (poller.begin world planners (max poller.now poller.due))
    else poller
termination_by (limit.nanoseconds + 1 - poller.due.nanoseconds, poller.rank)
decreasing_by
  · apply Prod.Lex.right
    cases hs : poller.signal.unseen <;> simp [rank, finish, _hp, hs]
  · apply Prod.Lex.right
    simp [rank, _hp, _hs, Shutdown.look]
  · apply Prod.Lex.left
    have h := due_lt_nextTick poller.interval poller.due (max poller.now poller.due) poller.interval_pos
      (Duration.le_max_right _ _)
    have hd : poller.due.nanoseconds ≤ limit.nanoseconds := _hd
    simp only [begin]
    omega

/-- What may happen to a poller from outside. -/
inductive Event where
  /-- Time passes. -/
  | pass (span : Duration)
  /-- A value is sent on the shutdown signal. -/
  | send (value : Bool)
  /-- The sending side of the shutdown signal goes. -/
  | close
deriving DecidableEq, Repr

/-- The poller after an event, once there is nothing more to do at that moment. -/
def after (world : Cycle.World π σ) (planners : List π) (poller : Poller σ) : Event → Poller σ
  | .pass span =>
    let limit := poller.now + span
    { advance world planners limit poller with now := limit }
  | .send value => advance world planners poller.now { poller with signal := poller.signal.send value }
  | .close => advance world planners poller.now { poller with signal := poller.signal.close }

/-- The poller after a schedule of events. -/
def run (world : Cycle.World π σ) (planners : List π) (events : List Event) (poller : Poller σ) : Poller σ :=
  events.foldl (after world planners) poller

/-- Waits for the end of a cycle that is under way. -/
def settle (world : Cycle.World π σ) (planners : List π) (poller : Poller σ) : Poller σ :=
  match poller.phase with
  | .running _ ending => advance world planners (max poller.now ending) poller
  | _ => poller

/-- Whether the poller has ended. -/
def isStopped (poller : Poller σ) : Bool :=
  match poller.phase with
  | .stopped => true
  | _ => false

end Poller

end OverlayHost
