/-!
# Durations

Spans of time in whole nanoseconds. Reading one in a larger unit drops what is left over.
-/

set_option autoImplicit false

namespace OverlayHost

/-- A span of time. -/
structure Duration where
  nanoseconds : Nat
deriving DecidableEq, Repr, Inhabited

namespace Duration

/-- No time at all. -/
def zero : Duration := ⟨0⟩

/-- A span of whole milliseconds. -/
def ofMillis (n : Nat) : Duration := ⟨n * 1000000⟩

/-- The whole microseconds in a span. -/
def micros (d : Duration) : Nat := d.nanoseconds / 1000

/-- The whole milliseconds in a span. -/
def millis (d : Duration) : Nat := d.nanoseconds / 1000000

instance : Add Duration := ⟨fun a b => ⟨a.nanoseconds + b.nanoseconds⟩⟩

instance : LE Duration := ⟨fun a b => a.nanoseconds ≤ b.nanoseconds⟩

instance : LT Duration := ⟨fun a b => a.nanoseconds < b.nanoseconds⟩

instance (a b : Duration) : Decidable (a ≤ b) := inferInstanceAs (Decidable (a.nanoseconds ≤ b.nanoseconds))

instance (a b : Duration) : Decidable (a < b) := inferInstanceAs (Decidable (a.nanoseconds < b.nanoseconds))

/-- The longer of two spans. -/
instance : Max Duration := ⟨fun a b => if a ≤ b then b else a⟩

/-- The longer of two spans is at least as long as the second. -/
theorem le_max_right (a b : Duration) : b ≤ max a b := by
  show b.nanoseconds ≤ (if a ≤ b then b else a).nanoseconds
  split
  · exact Nat.le_refl _
  · rename_i h
    exact Nat.le_of_lt (Nat.lt_of_not_le h)

/-- The span from an earlier reading of a clock to a later one. -/
instance : Sub Duration := ⟨fun a b => ⟨a.nanoseconds - b.nanoseconds⟩⟩

@[simp] theorem nanoseconds_add (a b : Duration) : (a + b).nanoseconds = a.nanoseconds + b.nanoseconds := rfl

@[simp] theorem nanoseconds_sub (a b : Duration) : (a - b).nanoseconds = a.nanoseconds - b.nanoseconds := rfl

theorem le_iff_nanoseconds {a b : Duration} : a ≤ b ↔ a.nanoseconds ≤ b.nanoseconds := Iff.rfl

/-- The digits of a fraction of a power of ten, without zeros at their end. -/
def fractionDigits (places : Nat) (fraction : Nat) : List Char :=
  let digits := Nat.toDigits 10 fraction
  let padded := List.replicate (places - digits.length) '0' ++ digits
  if fraction = 0 then [] else (padded.reverse.dropWhile (· = '0')).reverse

/-- A number of units with a fraction of a unit in a number of places, and the name of the unit. -/
def withUnit (whole fraction places : Nat) (unit : String) : String :=
  let digits := fractionDigits places fraction
  toString whole ++ String.ofList (if digits.isEmpty then [] else '.' :: digits) ++ unit

/-- The span in the largest unit of which it holds one, with all its digits. -/
def render (d : Duration) : String :=
  let n := d.nanoseconds
  if n ≥ 1000000000 then withUnit (n / 1000000000) (n % 1000000000) 9 "s"
  else if n ≥ 1000000 then withUnit (n / 1000000) (n % 1000000) 6 "ms"
  else if n ≥ 1000 then withUnit (n / 1000) (n % 1000) 3 "µs"
  else withUnit n 0 0 "ns"

end Duration

end OverlayHost
