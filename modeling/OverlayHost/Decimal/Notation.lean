import OverlayHost.Decimal.Shortest

/-!
# Notations of binary numbers

Two ways to write a double by its shortest decimal: in full, or in full only near 1 and else with a power of ten.
-/

set_option autoImplicit false

namespace OverlayHost.Decimal

/-- Digits with the point after a power of ten, filled up with zeros on either side. -/
def positional (digits : List Char) (leading : Int) : List Char :=
  if leading < 0 then
    ['0', '.'] ++ List.replicate (-leading - 1).toNat '0' ++ digits
  else
    let whole := leading.toNat + 1
    let padded := digits ++ List.replicate (whole - digits.length) '0'
    let fraction := padded.drop whole
    padded.take whole ++ '.' :: (if fraction.isEmpty then ['0'] else fraction)

/-- Digits with the point after the first, then the power of ten with its sign. -/
def scientific (digits : List Char) (leading : Int) : List Char :=
  let body := match digits with
    | first :: [] => [first]
    | first :: rest => first :: '.' :: rest
    | [] => []
  body ++ ['e', if leading < 0 then '-' else '+'] ++ Nat.toDigits 10 leading.natAbs

/-- A double by a layout for its digits; zero is written as the digit 0. -/
def write (tie : Tie) (layout : List Char → Int → List Char) (x : Float) : String :=
  let sign := if x.toBits.toNat ≥ Nat.pow 2 63 then ['-'] else []
  let body := if x == 0 then layout ['0'] 0
    else let (digits, leading) := (Shortest.ofFloat tie x).layout
      layout digits leading
  String.ofList (sign ++ body)

/-- A double with all its digits and a point, of two equally near decimals the greater; infinities and what is not a
number by name. -/
def inFull (x : Float) : String :=
  if x.isNaN then "NaN"
  else if x.isInf then (if x < 0 then "-inf" else "inf")
  else write .upward positional x

/-- A finite double in full from 0.00001 up to 10 ^ 16, and with a power of ten beyond; of two equally near decimals
the even one. -/
def general (x : Float) : String :=
  write .toEven (fun digits leading =>
    if -5 ≤ leading && leading < 16 then positional digits leading else scientific digits leading) x

end OverlayHost.Decimal
