/-!
# Sending metrics in datagrams

Lines wait in a queue until the emitter takes them; when the queue is full, or the emitter has ended, a line is dropped. The
emitter joins lines into a batch as long as they fit in one datagram, and hands the batch to its socket when the next line
would not fit, at every tick, and when it ends. It ends when it is told to, after it has taken all that waits, or when nobody
is left to report.
-/

set_option autoImplicit false

namespace OverlayHost.Metrics

/-- The most bytes of a datagram, unless a single line is longer. -/
def maxDatagram : Nat := 512

/-- How many lines may wait. -/
def queueCapacity : Nat := 1024

/-- The most bytes that a socket takes at once. -/
def maxSendable : Nat := 65507

/-- An emitter with the lines that wait for it. -/
structure Emitter where
  /-- The lines that wait, the oldest first. -/
  queue : List String := []
  /-- The lines taken and not handed on, joined by line feeds. -/
  batch : String := ""
  /-- The texts handed to the socket, in order. -/
  handed : List String := []
  /-- Whether anybody is left to report. -/
  connected : Bool := true
  ended : Bool := false
deriving DecidableEq, Repr

namespace Emitter

/-- Reports a line. -/
def report (emitter : Emitter) (line : String) : Emitter :=
  if emitter.ended || !emitter.connected || emitter.queue.length ≥ queueCapacity then emitter
  else { emitter with queue := emitter.queue ++ [line] }

/-- Nobody is left to report. -/
def disconnect (emitter : Emitter) : Emitter := { emitter with connected := false }

/-- Hands the batch to the socket, unless it is empty. -/
def flush (emitter : Emitter) : Emitter :=
  if emitter.batch = "" then emitter
  else { emitter with handed := emitter.handed ++ [emitter.batch], batch := "" }

/-- Adds a line to the batch, after handing the batch on if the line does not fit. -/
def push (emitter : Emitter) (line : String) : Emitter :=
  let emitter :=
    if emitter.batch ≠ "" && emitter.batch.utf8ByteSize + 1 + line.utf8ByteSize > maxDatagram then emitter.flush
    else emitter
  { emitter with batch := if emitter.batch = "" then line else emitter.batch ++ "\n" ++ line }

/-- Takes one line that waits; if there is none and nobody is left to report, the emitter ends. -/
def receive (emitter : Emitter) : Emitter :=
  if emitter.ended then emitter
  else match emitter.queue with
    | line :: rest => { emitter with queue := rest }.push line
    | [] => if emitter.connected then emitter else { emitter.flush with ended := true }

/-- A tick of the interval. -/
def tick (emitter : Emitter) : Emitter := if emitter.ended then emitter else emitter.flush

/-- Takes all lines that wait. -/
def drain (emitter : Emitter) : Emitter := emitter.queue.foldl push { emitter with queue := [] }

/-- The emitter is told to end. -/
def shutdown (emitter : Emitter) : Emitter :=
  if emitter.ended then emitter else { emitter.drain.flush with ended := true }

/-- Does all that there is to do before the next tick. -/
def settle (emitter : Emitter) : Emitter :=
  if emitter.ended then emitter else emitter.drain.receive

/-- The texts that went out as datagrams; one that is too long for the socket is lost. -/
def datagrams (emitter : Emitter) : List String :=
  emitter.handed.filter fun text => text.utf8ByteSize ≤ maxSendable

end Emitter

end OverlayHost.Metrics
