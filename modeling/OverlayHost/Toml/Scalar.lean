import OverlayHost.Config.Value
import OverlayHost.Toml.Fault

/-!
# Values of a TOML document without quotes

Truth values, numbers, dates and times. Each reader starts at the first character of a value and answers the value and what
follows it. What a value is shows at its first characters; from there on it has to be complete.
-/

set_option autoImplicit false

namespace OverlayHost.Toml

open Config (Value)

/-- The value of a digit up to `f`. -/
def digitValue (c : Char) : Nat :=
  if c.isDigit then c.toNat - '0'.toNat else c.toLower.toNat - 'a'.toNat + 10

/-- The number that digits write in a base. -/
def valueIn (base : Nat) (digits : List Char) : Nat :=
  digits.foldl (fun value digit => value * base + digitValue digit) 0

/-- Whether a character is a hexadecimal digit. -/
def isHexDigit (c : Char) : Bool := c.isDigit || ('a' ≤ c.toLower && c.toLower ≤ 'f')

/-- Puts a character in front of what a reader found. -/
def prepend (c : Char) (found : Attempt (List Char × List Char)) : Attempt (List Char × List Char) :=
  found.map fun (cs, rest) => (c :: cs, rest)

/-- The sign in front of a number, and the rest. -/
def splitSign : List Char → Bool × List Char
  | '-' :: rest => (true, rest)
  | '+' :: rest => (false, rest)
  | cs => (false, cs)

/-! ## Numbers -/

/-- The digits that follow the first of a number; a single underscore may stand between two. -/
def moreDigits (isDigit : Char → Bool) : List Char → Attempt (List Char × List Char)
  | [] => .ok ([], [])
  | c :: rest =>
    if isDigit c then prepend c (moreDigits isDigit rest)
    else if c = '_' then
      match rest with
      | [] => .error ((Fault.before []).expecting ["digit"])
      | d :: rest =>
        if isDigit d then prepend d (moreDigits isDigit rest)
        else .error ((Fault.before (d :: rest)).expecting ["digit"])
    else .ok ([], c :: rest)

/-- The digits of a number that has been begun. -/
def digits (isDigit : Char → Bool) : List Char → Attempt (List Char × List Char)
  | [] => .error (.before [])
  | c :: rest => if isDigit c then prepend c (moreDigits isDigit rest) else .error (.before (c :: rest))

/-- The sign and the digits of a decimal number; after a zero in front comes no further digit. -/
def decimal (cs : List Char) : Attempt ((Bool × List Char) × List Char) :=
  let (negative, body) := splitSign cs
  match body with
  | [] => .error ((Fault.absent []).labelled "integer")
  | c :: rest =>
    if c = '0' then .ok ((negative, ['0']), rest)
    else if c.isDigit then
      (label "integer" (digits Char.isDigit (c :: rest))).map fun (digits, rest) => ((negative, digits), rest)
    else .error ((Fault.absent (c :: rest)).labelled "integer")

/-- A number in another base; `whole` is the text from its mark on. -/
def inBase (name : String) (base : Nat) (isDigit : Char → Bool) (whole cs : List Char) : Attempt (Value × List Char) := do
  let (plain, rest) ← label name (digits isDigit cs)
  if valueIn base plain < Nat.pow 2 63 then return (.integer (valueIn base plain), rest)
  else throw ((Fault.before whole).causedBy .tooLarge)

/-- A number that fits 64 bits with a sign. -/
def integer (cs : List Char) : Attempt (Value × List Char) :=
  match cs with
  | '0' :: 'x' :: rest => inBase "hexadecimal integer" 16 isHexDigit cs rest
  | '0' :: 'o' :: rest => inBase "octal integer" 8 (fun c => '0' ≤ c && c ≤ '7') cs rest
  | '0' :: 'b' :: rest => inBase "binary integer" 2 (fun c => c = '0' || c = '1') cs rest
  | _ => do
    let ((negative, plain), rest) ← decimal cs
    let size := valueIn 10 plain
    if negative then
      if size ≤ Nat.pow 2 63 then return (.integer (-(size : Int)), rest)
      else throw ((Fault.before cs).causedBy .tooSmall)
    else if size < Nat.pow 2 63 then return (.integer size, rest)
    else throw ((Fault.before cs).causedBy .tooLarge)

/-- The double nearest to digits times a power of ten. No double reaches 10 ^ 400, and none but zero is below its
inverse. -/
def scaled (plain : List Char) (power : Int) : Float :=
  let significant := plain.dropWhile (· = '0')
  let whole := (significant.length : Int) + power
  if significant.isEmpty || whole < -400 then 0.0
  else if whole > 400 then 1.0 / 0.0
  else Float.ofScientific (valueIn 10 significant) (power < 0) power.natAbs

/-- The power of ten at the start of a text, which is zero unless there is an exponent. -/
def exponent (cs : List Char) : Attempt (Int × List Char) :=
  match cs with
  | [] => .ok (0, [])
  | c :: rest =>
    if c = 'e' || c = 'E' then
      let (negative, body) := splitSign rest
      (digits Char.isDigit body).map fun (plain, rest) =>
        (if negative then -(valueIn 10 plain : Int) else (valueIn 10 plain : Int), rest)
    else .ok (0, cs)

/-- The digits after the point at the start of a text; there are none without a point. -/
def fraction (cs : List Char) : Attempt (List Char × List Char) :=
  match cs with
  | [] => .ok ([], [])
  | c :: rest =>
    if c = '.' then (digits Char.isDigit rest).mapError (·.expecting ["digit"]) else .ok ([], cs)

/-- Infinity or what is no number, by their names. -/
def special? (cs : List Char) : Option (Float × List Char) :=
  match splitSign cs with
  | (negative, 'i' :: 'n' :: 'f' :: rest) => some (if negative then -(1.0 / 0.0) else 1.0 / 0.0, rest)
  | (_, 'n' :: 'a' :: 'n' :: rest) => some (0.0 / 0.0, rest)
  | _ => none

/-- The number with a fraction or an exponent at the start of a text, if there is one. One that is too large is refused,
though its negative is read as negative infinity. -/
def float? (cs : List Char) : Attempt (Option (Float × List Char)) :=
  match decimal cs with
  | .error fault => if fault.committed then .error fault else .ok (special? cs)
  | .ok ((negative, whole), rest) =>
    if rest.head?.any fun c => c = '.' || c = 'e' || c = 'E' then label "floating-point number" do
      let (places, rest) ← fraction rest
      let (power, rest) ← exponent rest
      let size := scaled (whole ++ places) (power - (places.length : Int))
      let value := if negative then -size else size
      if value == 1.0 / 0.0 then throw (.before cs) else return some (value, rest)
    else .ok none

/-! ## Dates and times -/

/-- The number at the start of a text that has a fixed count of digits, and the rest. -/
def fixedDigits? (count : Nat) (cs : List Char) : Option (Nat × List Char) :=
  let plain := cs.take count
  if plain.length = count && plain.all Char.isDigit then some (valueIn 10 plain, cs.drop count) else none

/-- Two digits that write a number in a range. -/
def twoDigits (low high : Nat) (cs : List Char) : Attempt (Nat × List Char) :=
  match fixedDigits? 2 cs with
  | none => .error (.before cs)
  | some (n, rest) => if low ≤ n && n ≤ high then .ok (n, rest) else .error ((Fault.before cs).causedBy .outOfRange)

/-- What follows a mark that has to be there. -/
def after (mark : Char) (cs : List Char) : Attempt (List Char) :=
  match cs with
  | [] => .error (.before [])
  | c :: rest => if c = mark then .ok rest else .error (.before cs)

/-- The days of a month. -/
def daysIn (year month : Nat) : Nat :=
  if month = 2 then if year % 4 = 0 && (year % 100 ≠ 0 || year % 400 = 0) then 29 else 28
  else if month = 4 || month = 6 || month = 9 || month = 11 then 30
  else 31

/-- What follows the date at the start of a text, if there is one: four digits and a dash begin it. -/
def date? (cs : List Char) : Attempt (Option (List Char)) :=
  match fixedDigits? 4 cs with
  | some (year, '-' :: rest) => do
    let (month, rest) ← twoDigits 1 12 rest
    let dayOn ← after '-' rest
    let (day, rest) ← twoDigits 1 31 dayOn
    if day ≤ daysIn year month then return some rest else throw ((Fault.before dayOn).causedBy .outOfRange)
  | _ => .ok none

/-- What follows the parts of a second, if there are any. -/
def dropParts (cs : List Char) : List Char :=
  match cs with
  | '.' :: c :: rest => if c.isDigit then rest.dropWhile Char.isDigit else cs
  | _ => cs

/-- What follows the time at the start of a text, if there is one: an hour and a colon begin it. -/
def time? (cs : List Char) : Attempt (Option (List Char)) :=
  match fixedDigits? 2 cs with
  | some (hour, ':' :: rest) =>
    if hour ≤ 23 then do
      let (_, rest) ← twoDigits 0 59 rest
      let (_, rest) ← twoDigits 0 60 (← after ':' rest)
      return some (dropParts rest)
    else .ok none
  | _ => .ok none

/-- What follows the distance from universal time, if it is given. -/
def dropOffset (cs : List Char) : Attempt (List Char) :=
  match cs with
  | [] => .ok []
  | c :: rest =>
    if c = 'Z' || c = 'z' then .ok rest
    else if c = '+' || c = '-' then label "time offset" do
      let (_, rest) ← twoDigits 0 23 rest
      let (_, rest) ← twoDigits 0 59 (← after ':' rest)
      return rest
    else .ok cs

/-- What follows the time after a date, if there is one. -/
def dropTime (cs : List Char) : Attempt (List Char) :=
  match cs with
  | [] => .ok []
  | c :: rest =>
    if c = 'T' || c = 't' || c = ' ' then do
      match ← time? rest with
      | some rest => dropOffset rest
      | none => return cs
    else .ok cs

/-- What follows the date, the time or both at the start of a text, if there is one. -/
def moment? (cs : List Char) : Attempt (Option (List Char)) := do
  match ← label "date-time" (date? cs) with
  | some rest => return some (← label "date-time" (dropTime rest))
  | none => label "time" (time? cs)

/-! ## Values -/

/-- A number, a date or a time. -/
def number (cs : List Char) : Attempt (Value × List Char) := do
  match ← moment? cs with
  | some rest => return (.moment (String.ofList (cs.take (cs.length - rest.length))), rest)
  | none => match ← float? cs with
    | some (value, rest) => return (.float value, rest)
    | none => integer cs

/-- Adds to a fault that a text in quotes could stand at its place. -/
def Fault.wantingText (fault : Fault) : Fault := (fault.labelled "string").expecting ["`\"`", "`'`"]

/-- The value that a word names. -/
def named (word : String) (value : Value) (fault : Fault) (cs : List Char) : Attempt (Value × List Char) :=
  if word.toList.isPrefixOf cs then .ok (value, cs.drop word.length) else .error fault.wantingText

/-- The value without quotes at the start of a text. -/
def scalar (cs : List Char) : Attempt (Value × List Char) :=
  match cs with
  | [] => .error (.absent [])
  | c :: _ =>
    if c = '+' || c = '-' || c.isDigit then number cs
    else if c = '_' then .error (((Fault.absent cs).labelled "integer").expecting ["leading digit"])
    else if c = '.' then .error (((Fault.absent cs).labelled "floating-point number").expecting ["leading digit"])
    else if c = 't' then named "true" (.boolean true) (.before cs) cs
    else if c = 'f' then named "false" (.boolean false) (.before cs) cs
    else if c = 'i' then named "inf" (.float (1.0 / 0.0)) (.absent cs) cs
    else if c = 'n' then named "nan" (.float (0.0 / 0.0)) (.absent cs) cs
    else .error (Fault.absent cs).wantingText

end OverlayHost.Toml
