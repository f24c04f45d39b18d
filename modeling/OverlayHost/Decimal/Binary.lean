/-!
# Binary numbers

What a double stands for apart from its sign: a natural number times a power of two.
-/

set_option autoImplicit false

namespace OverlayHost.Decimal

/-- The number `mantissa * 2 ^ (power - 1075)`. -/
structure Binary where
  mantissa : Nat
  power : Nat
deriving DecidableEq, Repr

namespace Binary

/-- The mantissa from which on a number has all its digits. -/
def full : Nat := Nat.pow 2 52

/-- What a finite double stands for apart from its sign. -/
def ofFloat (x : Float) : Binary :=
  let bits := x.toBits.toNat
  let field := bits / full % 2048
  if field = 0 then ⟨bits % full, 1⟩ else ⟨full + bits % full, field⟩

/-- Whether the number below is only half as far away as the number above. -/
def isLowest (x : Binary) : Bool := x.mantissa = full && x.power > 1

end Binary

end OverlayHost.Decimal
