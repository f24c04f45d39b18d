import OverlayHost.Filter.Tables

/-!
# A packet filter in memory

The tables of a filter, with a log of the calls made on it and with failures that are waiting to happen: each makes
the next call of one operation fail. A call is logged before anything else is done about it.
-/

set_option autoImplicit false

namespace OverlayHost.Filter

/-- A packet filter kept in memory. -/
structure Memory where
  tables : Tables
  /-- The operations whose next call fails, in the order in which they were asked to. -/
  pending : List Kind
  /-- The calls made so far, in order. -/
  calls : List Call

namespace Memory

/-- A new filter, to which nothing has happened. -/
def initial : Memory := ⟨Tables.initial, [], []⟩

/-- Makes the next call of an operation fail. -/
def failNext (memory : Memory) (kind : Kind) : Memory :=
  { memory with pending := memory.pending ++ [kind] }

/-- Answers a call. -/
def perform (memory : Memory) (call : Call) : Reply × Memory :=
  let logged := { memory with calls := memory.calls ++ [call] }
  let kind := call.operation.kind
  if memory.pending.contains kind then
    (.error (Tables.Refusal.injected kind).toError, { logged with pending := memory.pending.erase kind })
  else match memory.tables.apply call with
    | .error refusal => (.error refusal.toError, logged)
    | .ok (lines, tables) => (.ok lines, { logged with tables := tables })

end Memory

end OverlayHost.Filter
