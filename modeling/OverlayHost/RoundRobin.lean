/-!
# Round robin

A list of items handed out in turn. The cursor counts the calls in 64 bits; an empty list hands out nothing and
keeps its cursor.
-/

set_option autoImplicit false

namespace OverlayHost

/-- Items in rotation, and how many calls have been made. -/
structure RoundRobin (α : Type) where
  items : List α
  cursor : UInt64 := 0

namespace RoundRobin

variable {α : Type}

/-- A rotation that starts at the first item. -/
def ofList (items : List α) : RoundRobin α := { items }

/-- The number of items in the rotation. -/
def size (rotation : RoundRobin α) : Nat := rotation.items.length

/-- Whether there is nothing to hand out. -/
def isEmpty (rotation : RoundRobin α) : Bool := rotation.items.isEmpty

/-- The item whose turn it is, and the rotation after it. -/
def next (rotation : RoundRobin α) : Option α × RoundRobin α :=
  if rotation.isEmpty then (none, rotation)
  else
    (rotation.items[rotation.cursor.toNat % rotation.items.length]?,
      { rotation with cursor := rotation.cursor + 1 })

/-- What a number of calls hand out, in order. -/
def take : Nat → RoundRobin α → List (Option α)
  | 0, _ => []
  | n + 1, rotation => rotation.next.1 :: take n rotation.next.2

end RoundRobin

end OverlayHost
