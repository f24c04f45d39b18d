import OverlayHost.ControlPlane.Client
import OverlayHost.Proofs.Shutdown

/-!
# A client with many callers

Calls of one client that are under way at the same time. A call enters if the client is open, has its turn in the rotation,
looks at the shutdown signal, is sent to its endpoint and waits; each of these steps is taken by itself, with anything
happening in between. A closing takes the rotation away from the calls that have not entered yet, and from no other.

What is due is done before time goes on: no moment goes by in which a waiting call has its answer, its deadline or the
shutdown signal. Of what is due at one moment, any may be done first.
-/

set_option autoImplicit false

namespace OverlayHost.ControlPlane

/-- What the calls of a client meet with. -/
structure World (ε : Type) where
  endpoints : List ε
  timeout : Duration
  /-- What an endpoint answers to a call, and after how long; there may be no answer at all. -/
  fate : Nat → ε → Option (Duration × Except Status String)

/-- How far a call has come that was given to an endpoint. -/
inductive Progress where
  | ready
  /-- It found the shutdown signal set, and was not sent. -/
  | stopped (moment : Duration)
  | waiting (since : Duration)
  | ended (since moment : Duration) (result : Except Error String)

/-- How far a call has come. -/
inductive Phase (ε : Type) where
  /-- It found the client closed. -/
  | refused
  | entered
  | given (turn : Nat) (endpoint : ε) (progress : Progress)

variable {ε : Type}

/-- Whether a call was sent. -/
def Progress.isSent : Progress → Bool
  | .ready | .stopped _ => false
  | .waiting _ | .ended .. => true

/-- What a call returned, if it did. -/
def Progress.result? : Progress → Option (Except Error String)
  | .ready | .waiting _ => none
  | .stopped _ => some (.error .cancelled)
  | .ended _ _ result => some result

/-- What a call returned, if it did. -/
def Phase.result? : Phase ε → Option (Except Error String)
  | .refused => some (.error .channelClosing)
  | .entered => none
  | .given _ _ progress => progress.result?

/-- The number of the turn that a call had. -/
def Phase.turn? : Phase ε → Option Nat
  | .refused | .entered => none
  | .given turn _ _ => some turn

/-- A client and its calls, in the order in which they began, with a record of what was done. -/
structure State (ε : Type) where
  /-- The rotation, which outlives the client for the calls that have entered. -/
  rotation : RoundRobin ε
  isOpen : Bool := true
  signal : Shutdown := {}
  /-- The moment from which the signal is set. -/
  shutdown : Shutdown.Moment := none
  now : Duration := .zero
  calls : List (Phase ε) := []
  /-- How many calls have had a turn. -/
  turns : Nat := 0
  /-- Which calls were sent to which endpoints. -/
  requests : List (Nat × ε) := []
  /-- What the closings returned. -/
  closings : List (Except Error Unit) := []

/-- What may happen next. -/
inductive Event where
  | enter
  | turn (call : Nat)
  | look (call : Nat)
  | hear (call : Nat)
  | conclude (call : Nat)
  | close
  | signal (event : Shutdown.Event)
  | tick (moment : Duration)
deriving DecidableEq

namespace World

/-- A call as the client itself has it. -/
def call (world : World ε) (i : Nat) (start : Duration) (shutdown : Shutdown.Moment) (signalFirst signalLast : Bool) :
    Call ε :=
  { start, fate := world.fate i, shutdown, signalFirst, signalLast }

/-- When a call that waits since a moment ends by itself, and with what. -/
def conclusion (world : World ε) (i : Nat) (endpoint : ε) (since : Duration) : Duration × Except Status String :=
  (world.call i since none false false).concluded world.timeout endpoint

/-- A client that is open, with nothing done. -/
def start (world : World ε) : State ε := { rotation := .ofList world.endpoints }

/-- The client of a state. -/
def client (world : World ε) (state : State ε) : Client ε :=
  { channels := if state.isOpen then some state.rotation else none, timeout := world.timeout }

@[simp] theorem isSome_channels (world : World ε) (state : State ε) :
    (world.client state).channels.isSome = state.isOpen := by
  unfold client
  cases state.isOpen <;> rfl

theorem close_client (world : World ε) (state : State ε) :
    (world.client state).close =
      (if state.isOpen then .ok () else .error .channelClosing, { channels := none, timeout := world.timeout }) := by
  unfold client Client.close
  cases state.isOpen <;> rfl

end World

namespace State

def set (state : State ε) (i : Nat) (phase : Phase ε) : State ε := { state with calls := state.calls.set i phase }

@[simp] theorem calls_set (state : State ε) (i : Nat) (phase : Phase ε) :
    (state.set i phase).calls = state.calls.set i phase := rfl

/-- A call waits for an endpoint since a moment. -/
def Waits (state : State ε) (i : Nat) (endpoint : ε) (since : Duration) : Prop :=
  ∃ turn, state.calls[i]? = some (.given turn endpoint (.waiting since))

/-- Has the signal receive what is done on its sending side. -/
def hearing (state : State ε) (event : Shutdown.Event) : State ε :=
  let signal := state.signal.receive event
  { state with signal, shutdown := if signal.value then state.shutdown.or (some state.now) else state.shutdown }

@[simp] theorem calls_hearing (state : State ε) (event : Shutdown.Event) :
    (state.hearing event).calls = state.calls := rfl

end State

/-- One step of a call, of a closing, of the shutdown signal or of time. A signal that is set is left so. -/
inductive Step (world : World ε) (state : State ε) : Event → State ε → Prop
  | enter :
      Step world state .enter
        { state with calls := state.calls ++ [if (world.client state).channels.isSome then .entered else .refused] }
  | turn {i : Nat} {endpoint : ε} {rotation : RoundRobin ε} (hcall : state.calls[i]? = some .entered)
      (hnext : state.rotation.next = (some endpoint, rotation)) :
      Step world state (.turn i)
        { state with
          rotation, turns := state.turns + 1, calls := state.calls.set i (.given state.turns endpoint .ready) }
  | vain {i : Nat} {rotation : RoundRobin ε} (hcall : state.calls[i]? = some .entered)
      (hnext : state.rotation.next = (none, rotation)) :
      Step world state (.turn i) { state with rotation, calls := state.calls.set i .refused }
  | stop {i turn : Nat} {endpoint : ε} (hcall : state.calls[i]? = some (.given turn endpoint .ready))
      (hset : state.signal.value = true) :
      Step world state (.look i) (state.set i (.given turn endpoint (.stopped state.now)))
  | send {i turn : Nat} {endpoint : ε} (hcall : state.calls[i]? = some (.given turn endpoint .ready))
      (hunset : state.signal.value = false) :
      Step world state (.look i)
        { state with
          requests := state.requests ++ [(i, endpoint)]
          calls := state.calls.set i (.given turn endpoint (.waiting state.now)) }
  | hear {i turn : Nat} {endpoint : ε} {since : Duration}
      (hcall : state.calls[i]? = some (.given turn endpoint (.waiting since))) (hset : state.signal.value = true) :
      Step world state (.hear i) (state.set i (.given turn endpoint (.ended since state.now (.error .cancelled))))
  | conclude {i turn : Nat} {endpoint : ε} {since : Duration} {answer : Except Status String}
      (hcall : state.calls[i]? = some (.given turn endpoint (.waiting since)))
      (hdue : world.conclusion i endpoint since = (state.now, answer)) :
      Step world state (.conclude i)
        (state.set i (.given turn endpoint (.ended since state.now (answer.mapError Error.rpc))))
  | close :
      Step world state .close
        { state with
          isOpen := (world.client state).close.2.channels.isSome
          closings := state.closings ++ [(world.client state).close.1] }
  | signal {event : Shutdown.Event} (hleft : event = .send false → state.signal.value = false) :
      Step world state (.signal event) (state.hearing event)
  | tick {moment : Duration} (hlater : state.now ≤ moment)
      (hdone : ∀ i endpoint since, state.Waits i endpoint since →
        state.signal.value = false ∧ moment ≤ (world.conclusion i endpoint since).1) :
      Step world state (.tick moment) { state with now := moment }

/-- What may be made of a state by events, in their order. -/
inductive Run (world : World ε) (state : State ε) : List Event → State ε → Prop
  | nil : Run world state [] state
  | snoc {events : List Event} {event : Event} {next after : State ε} (hrun : Run world state events next)
      (hstep : Step world next event after) : Run world state (events ++ [event]) after

variable {world : World ε} {state next after : State ε} {event : Event} {events more : List Event}

theorem Run.append (hrun : Run world state events next) (hmore : Run world next more after) :
    Run world state (events ++ more) after := by
  induction hmore with
  | nil => rwa [List.append_nil]
  | snoc _ hstep ih =>
    rw [← List.append_assoc]
    exact ih.snoc hstep

theorem Run.one (hstep : Step world state event next) : Run world state [event] next := Run.nil.snoc hstep

/-! ## What a step leaves as it is -/

variable {i k : Nat} {phase other : Phase ε}

/-- What is true of the calls and of a phase is true when one of them has it. -/
theorem forall_getElem?_set {P : Nat → Phase ε → Prop} {calls : List (Phase ε)}
    (hcalls : ∀ i phase, calls[i]? = some phase → P i phase) (hphase : P k other) :
    ∀ i phase, (calls.set k other)[i]? = some phase → P i phase := by
  intro i phase h
  rw [List.getElem?_set] at h
  split at h
  next heq =>
    split at h
    · cases h
      exact heq ▸ hphase
    · cases h
  next => exact hcalls i phase h

theorem forall_getElem?_concat {P : Nat → Phase ε → Prop} {calls : List (Phase ε)}
    (hcalls : ∀ i phase, calls[i]? = some phase → P i phase) (hphase : P calls.length other) :
    ∀ i phase, (calls ++ [other])[i]? = some phase → P i phase := by
  intro i phase h
  rcases Nat.lt_trichotomy i calls.length with hlt | rfl | hgt
  · rw [List.getElem?_append_left hlt] at h
    exact hcalls i phase h
  · rw [List.getElem?_concat_length] at h
    cases h
    exact hphase
  · rw [List.getElem?_eq_none (by rw [List.length_append]; exact hgt)] at h
    cases h

/-- What is read of a phase is left as it is by a phase of which the same is read. -/
theorem bind_getElem?_set {β : Type} {calls : List (Phase ε)} {read : Phase ε → Option β} (hcall : calls[k]? = some phase)
    (hread : read other = read phase) (i : Nat) : (calls.set k other)[i]?.bind read = calls[i]?.bind read := by
  rw [List.getElem?_set]
  split
  next heq =>
    obtain ⟨hlt, -⟩ := List.getElem?_eq_some_iff.mp hcall
    rw [if_pos hlt, ← heq, hcall, Option.bind_some, Option.bind_some, hread]
  next => rfl

theorem bind_getElem?_concat {β : Type} {calls : List (Phase ε)} {read : Phase ε → Option β} (hread : read other = none)
    (i : Nat) : (calls ++ [other])[i]?.bind read = calls[i]?.bind read := by
  rcases Nat.lt_trichotomy i calls.length with hlt | rfl | hgt
  · rw [List.getElem?_append_left hlt]
  · rw [List.getElem?_concat_length, List.getElem?_eq_none (Nat.le_refl _), Option.bind_some, hread, Option.bind_none]
  · rw [List.getElem?_eq_none (by rw [List.length_append]; exact hgt), List.getElem?_eq_none (Nat.le_of_lt hgt)]

end OverlayHost.ControlPlane
