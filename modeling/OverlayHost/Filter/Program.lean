import OverlayHost.Filter.Call

/-!
# Programs over a packet filter

A program that works on a packet filter, as a finite tree of the calls it makes: each node is one call, or one reading
of the clock, and goes on by what is answered. So a program can be run on any filter, stopped between any two calls,
and followed call by call. `Program.run` runs it to its end, and `Program.trace` lists what it called and was answered.
-/

set_option autoImplicit false

namespace OverlayHost.Filter

/-- A program that makes calls on a packet filter and reads a clock of whole seconds. -/
inductive Program (α : Type) where
  | done (result : α)
  | call (request : Call) (next : Reply → Program α)
  | clock (next : Nat → Program α)

/-- What a program runs on: how a state answers calls and clock readings. -/
structure Host (σ : Type) where
  perform : σ → Call → Reply × σ
  now : σ → Nat × σ

namespace Program

variable {α σ : Type}

/-- Runs a program to its end. -/
def run (host : Host σ) : Program α → σ → α × σ
  | .done result, state => (result, state)
  | .call request next, state =>
    let (reply, after) := host.perform state request
    run host (next reply) after
  | .clock next, state =>
    let (now, after) := host.now state
    run host (next now) after

/-- One thing that a program did. -/
inductive Event where
  | called (request : Call) (reply : Reply)
  | read (now : Nat)

/-- All that a program does until its end, each with the state after it. -/
def trace (host : Host σ) : Program α → σ → List (Event × σ)
  | .done _, _ => []
  | .call request next, state =>
    let (reply, after) := host.perform state request
    (.called request reply, after) :: trace host (next reply) after
  | .clock next, state =>
    let (now, after) := host.now state
    (.read now, after) :: trace host (next now) after

end Program

end OverlayHost.Filter
