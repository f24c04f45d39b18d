import OverlayHost.Decimal.Binary

/-!
# Decimals with a fixed number of places

A double written with so many decimal places: its exact value, rounded to the nearest, and a tie to the even neighbour.
-/

set_option autoImplicit false

namespace OverlayHost.Decimal

/-- A quotient of natural numbers, rounded to the nearest; a tie goes to the even neighbour. -/
def roundDiv (num den : Nat) : Nat :=
  let floor := num / den
  let twice := 2 * (num % den)
  if twice < den then floor
  else if twice > den then floor + 1
  else if floor % 2 = 0 then floor else floor + 1

/-- A natural number of units of the last place, with a point before its places. -/
def withPlaces (places units : Nat) : String :=
  let digits := Nat.toDigits 10 units
  let padded := List.replicate (places + 1 - digits.length) '0' ++ digits
  let whole := padded.length - places
  String.ofList (padded.take whole ++ '.' :: padded.drop whole)

/-- A finite double without its sign, with a number of places. -/
def fixed (places : Nat) (x : Float) : String :=
  let binary := Binary.ofFloat x
  let units := binary.mantissa * Nat.pow 10 places * Nat.pow 2 (binary.power - 1075)
  withPlaces places (roundDiv units (Nat.pow 2 (1075 - binary.power)))

end OverlayHost.Decimal
