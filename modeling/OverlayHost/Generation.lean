import OverlayHost.Text.Blank
import OverlayHost.Text.Digits

/-!
# Generations of a chain

The chains that are built for one stem are told apart by a generation, a number written with at least ten digits
after the stem. A line of a listing names a generation if it holds the stem and exactly ten digits as one word.
-/

set_option autoImplicit false

namespace OverlayHost.Generation

/-- A number in decimal digits, with zeros in front up to ten digits. -/
def digits (generation : Nat) : List Char :=
  let written := Nat.toDigits 10 generation
  List.replicate (10 - written.length) '0' ++ written

/-- The name of a generation of a stem. -/
def name (stem : String) (generation : Nat) : String :=
  String.ofList (stem.toList ++ digits generation)

/-- The generation at the start of a line, if a generation's name is the first word of it: the stem, ten digits,
then a blank or the end. -/
def atStart? (stem line : List Char) : Option Nat :=
  if stem.isPrefixOf line then
    let after := line.drop stem.length
    let written := after.take 10
    if written.length = 10 && written.all Char.isDigit then
      match after.drop 10 with
      | [] => some (Text.decimalValue written)
      | next :: _ => if Text.isBlank next then some (Text.decimalValue written) else none
    else none
  else none

/-- The generation that the leftmost name in a line has, where a name starts only after a blank. -/
def afterBlank? (stem : List Char) : List Char → Option Nat
  | [] => none
  | c :: rest =>
    if Text.isBlank c then
      match atStart? stem rest with
      | some generation => some generation
      | none => afterBlank? stem rest
    else afterBlank? stem rest

/-- The generation that a line names, the leftmost if it names several. -/
def inLine? (stem line : String) : Option Nat :=
  match atStart? stem.toList line.toList with
  | some generation => some generation
  | none => afterBlank? stem.toList line.toList

/-- Puts a generation into an ascending list, unless it is there. -/
def insert (generation : Nat) : List Nat → List Nat
  | [] => [generation]
  | first :: rest =>
    if generation < first then generation :: first :: rest
    else if generation = first then first :: rest
    else first :: insert generation rest

/-- The generations named in the lines of a listing, each once, the oldest first. -/
def inListing (stem : String) (lines : List String) : List Nat :=
  lines.foldl (fun found line =>
    match inLine? stem line with
    | some generation => insert generation found
    | none => found) []

/-- The generation to build next: the clock reading, or one more than the newest if that is not older. -/
def next (found : List Nat) (now : Nat) : Nat :=
  match found.getLast? with
  | some newest => if newest ≥ now then newest + 1 else now
  | none => now

end OverlayHost.Generation
