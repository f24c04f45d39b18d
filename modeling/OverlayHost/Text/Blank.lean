/-!
# Blank space

The characters with the Unicode property White_Space, trimming by them, and splitting into lines.
-/

set_option autoImplicit false

namespace OverlayHost.Text

/-- The characters with the Unicode property White_Space. -/
def isBlank (c : Char) : Bool :=
  let n := c.toNat
  (9 ≤ n && n ≤ 13) || n = 32 || n = 0x85 || n = 0xA0 || n = 0x1680 || (0x2000 ≤ n && n ≤ 0x200A) ||
    n = 0x2028 || n = 0x2029 || n = 0x202F || n = 0x205F || n = 0x3000

/-- Drops the longest end of a list on which a test holds. -/
def dropEnd (p : Char → Bool) (cs : List Char) : List Char :=
  (cs.reverse.dropWhile p).reverse

/-- The text without the blanks at its start and at its end. -/
def trim (s : String) : String :=
  String.ofList (dropEnd isBlank (s.toList.dropWhile isBlank))

/-- Whether a text holds blanks only. -/
def isAllBlank (s : String) : Bool := s.toList.all isBlank

/-- Splits a list at every occurrence of a character; the pieces do not hold it. -/
def splitAtChar (sep : Char) : List Char → List (List Char)
  | [] => [[]]
  | c :: rest =>
    if c = sep then [] :: splitAtChar sep rest
    else match splitAtChar sep rest with
      | [] => [[c]]
      | piece :: pieces => (c :: piece) :: pieces

/-- A line that was ended by a line feed, without the carriage return before it. -/
def dropReturn (line : List Char) : List Char :=
  match line.reverse with
  | '\r' :: rest => rest.reverse
  | _ => line

/-- The lines of a text: each ends at a line feed, with or without a carriage return before it; what follows the
last line feed is a line if it is not empty. -/
def lines (s : String) : List String :=
  let pieces := splitAtChar '\n' s.toList
  let ended := pieces.dropLast.map fun piece => String.ofList (dropReturn piece)
  match pieces.getLast? with
  | some (c :: cs) => ended ++ [String.ofList (c :: cs)]
  | _ => ended

end OverlayHost.Text
