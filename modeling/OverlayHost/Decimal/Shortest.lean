import OverlayHost.Decimal.Binary

/-!
# The shortest decimal of a binary number

The fewest decimal digits that lie nearer to a double than to its neighbours, and of those with that many digits the
nearest. `Shortest.ofFloat` finds them in exact arithmetic on natural numbers; which of two decimals is taken that are
equally near is for the caller to say.
-/

set_option autoImplicit false

namespace OverlayHost.Decimal

/-- The positive decimal `digits · 10 ^ exponent`. -/
structure Shortest where
  digits : Nat
  exponent : Int
deriving DecidableEq, Repr

/-- Which of two neighbouring decimals is taken for a number half way between them. -/
inductive Tie where
  | toEven
  | upward
deriving DecidableEq, Repr

/-- A positive number with the ends of the interval of numbers that are read back as it, over one denominator. -/
structure Interval where
  low : Nat
  value : Nat
  high : Nat
  denominator : Nat
  /-- Whether the ends themselves are read back as the number. -/
  closed : Bool

namespace Interval

/-- The interval around a positive number; four times the mantissa makes room for the halves. -/
def ofBinary (x : Binary) : Interval :=
  let scale := Nat.pow 2 (x.power - 1077)
  { low := (4 * x.mantissa - if x.isLowest then 1 else 2) * scale
    value := 4 * x.mantissa * scale
    high := (4 * x.mantissa + 2) * scale
    denominator := Nat.pow 2 (1077 - x.power)
    closed := x.mantissa % 2 = 0 }

/-- The power of ten of the first digit of the value. -/
def leading (x : Interval) : Int :=
  ((Nat.toDigits 10 (x.value * Nat.pow 10 400 / x.denominator)).length : Int) - 401

/-- Whether a decimal is read back as the value. -/
def holds (x : Interval) (d : Shortest) : Bool :=
  let left := d.digits * Nat.pow 10 d.exponent.toNat * x.denominator
  let down := Nat.pow 10 (-d.exponent).toNat
  if x.closed then x.low * down ≤ left && left ≤ x.high * down
  else x.low * down < left && left < x.high * down

/-- The decimal with a number of digits that is nearest to the value, if one of the two neighbours on that grid is
read back as the value. -/
def onGrid? (x : Interval) (tie : Tie) (count : Nat) : Option Shortest :=
  let exponent := x.leading - (count : Int) + 1
  let up := Nat.pow 10 exponent.toNat
  let down := Nat.pow 10 (-exponent).toNat
  let floor := x.value * down / (x.denominator * up)
  let rest := x.value * down - floor * (x.denominator * up)
  let lower : Shortest := ⟨floor, exponent⟩
  let upper : Shortest := ⟨floor + 1, exponent⟩
  match x.holds lower, x.holds upper with
  | true, true =>
    let twice := 2 * rest
    if twice < x.denominator * up then some lower
    else if twice > x.denominator * up then some upper
    else if tie = .toEven && floor % 2 = 0 then some lower else some upper
  | true, false => some lower
  | false, true => some upper
  | false, false => none

end Interval

namespace Shortest

/-- The first hit on the grids of one digit, two digits and so on. -/
def search (tie : Tie) (x : Interval) : Nat → Nat → Shortest
  | 0, count => ⟨x.value * Nat.pow 10 count / x.denominator, -(count : Int)⟩
  | grids + 1, count => (x.onGrid? tie count).getD (search tie x grids (count + 1))

/-- The shortest decimal of a positive finite double. -/
def ofFloat (tie : Tie) (x : Float) : Shortest :=
  search tie (Interval.ofBinary (Binary.ofFloat x)) 17 1

/-- The digits of a shortest decimal without zeros at their end, and the power of ten of the first of them. -/
def layout (d : Shortest) : List Char × Int :=
  let written := Nat.toDigits 10 d.digits
  (((written.reverse.dropWhile (· = '0')).reverse), d.exponent + (written.length : Int) - 1)

end Shortest

end OverlayHost.Decimal
