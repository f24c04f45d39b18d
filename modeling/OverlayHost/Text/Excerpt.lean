import OverlayHost.Text.Blank

/-!
# Excerpts

A message about a place in a text shows the line of that place with marks under the place. A span names a part of a text by
what is left of the text, so that a reader that goes through a text from its start can say where it stands.
-/

set_option autoImplicit false

namespace OverlayHost.Text

/-- A part of a text, given by how many characters follow its start and how many follow its end. -/
structure Span where
  start : Nat
  stop : Nat
deriving DecidableEq, Repr

/-- The part between what is left at its start and what is left at its end. -/
def Span.between (start stop : List Char) : Span := ⟨start.length, stop.length⟩

/-- The number of bytes of characters. -/
def byteCount (cs : List Char) : Nat := (String.ofList cs).utf8ByteSize

/-- The line of a place, and the marks under it. -/
structure Excerpt where
  /-- The number of the line, counted from one. -/
  line : Nat
  /-- The column of the first mark, counted from one. -/
  column : Nat
  content : String
  marks : Nat
deriving DecidableEq, Repr

namespace Excerpt

/-- The characters since the last line break. -/
def lineStart (before : List Char) : List Char := (before.reverse.takeWhile (· ≠ '\n')).reverse

/-- What comes before the place on whose line the excerpt is, and the number of columns left of it. The end of a text belongs
to the line of its last character. Before a character of several bytes the columns are counted in bytes. -/
def position (before after : List Char) : List Char × Nat :=
  match after with
  | [] => (before.dropLast, if before.isEmpty then 0 else (lineStart before.dropLast).length + 1)
  | c :: _ => (before, if c.toNat < 128 then (lineStart before).length else byteCount (lineStart before))

/-- The excerpt for a part of a text; there is at least one mark, and none beyond the end of the line. -/
def ofSpan (text : String) (span : Span) : Excerpt :=
  let cs := text.toList
  let after := cs.drop (cs.length - span.start)
  let (before, columns) := position (cs.take (cs.length - span.start)) after
  let line := before.count '\n'
  let content := ((splitAtChar '\n' cs)[line]?).getD []
  { line := line + 1
    column := columns + 1
    content := String.ofList content
    marks := max 1 (min (byteCount (after.take (span.start - span.stop))) (byteCount content - columns)) }

/-- The excerpt with what it is about above it and a message below it. -/
def render (excerpt : Excerpt) (heading message : String) : String :=
  let number := toString excerpt.line
  let margin := String.ofList (List.replicate (number.length + 1) ' ')
  let marks := String.ofList (List.replicate excerpt.column ' ' ++ List.replicate excerpt.marks '^')
  s!"{heading} at line {number}, column {excerpt.column}\n{margin}|\n{number} | {excerpt.content}\n" ++
    s!"{margin}|{marks}\n{message}\n"

end Excerpt

end OverlayHost.Text
