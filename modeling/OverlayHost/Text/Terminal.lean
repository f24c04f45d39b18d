/-!
# Text for a terminal

A terminal acts on some characters instead of showing them: on single control characters, and on sequences that an escape
begins. Here a text loses what would be acted upon. Tabs and the ends of lines are shown, and inside a sequence that is not a
text of its own they are shown too; what follows them is then read as outside of the sequence, until something is not shown.
-/

set_option autoImplicit false

namespace OverlayHost.Text.Terminal

/-- A sequence that has begun, by what may follow in it. -/
inductive Sequence where
  /-- The escape alone. -/
  | escape
  /-- An escape that only its last character is to follow. -/
  | designation
  /-- Parameters and a letter, as for a colour. -/
  | control
  /-- The start of a text for the device. -/
  | device
  /-- The parameters of a text for the device. -/
  | deviceParameters
  /-- What comes between the parameters and a text for the device. -/
  | deviceFunction
  /-- A text that a string terminator ends. -/
  | string
  /-- A text that a bell ends. -/
  | command
deriving DecidableEq, Repr

/-- Whether the code of a character is in a range. -/
def within (low high : Nat) (c : Char) : Bool := low ≤ c.toNat && c.toNat ≤ high

/-- Whether a control character moves the cursor over a blank. -/
def isBlankControl (c : Char) : Bool := c = '\t' || c = '\n' || c = '\x0c' || c = '\x0d'

/-- Whether a character outside of any sequence is shown. -/
def isVisible (c : Char) : Bool := isBlankControl c || within 0x20 0x7e c || 0x80 ≤ c.toNat

/-- Whether the encoding of a character holds the byte that terminates a string. -/
def isTerminator (c : Char) : Bool := (String.utf8EncodeChar c).contains 0x9c

namespace Sequence

/-- What is left of a sequence after a character that is no escape and does not abort it. -/
def after (c : Char) : Sequence → Option Sequence
  | escape =>
    if within 0x20 0x2f c then some designation
    else if c = '[' then some control
    else if c = ']' then some command
    else if c = 'P' then some device
    else if c = 'X' || c = '^' || c = '_' then some string
    else if within 0x30 0x7e c then none
    else some escape
  | designation => if within 0x30 0x7e c then none else some designation
  | control => if within 0x40 0x7e c then none else some control
  | device =>
    if within 0x20 0x2f c then some deviceFunction
    else if within 0x30 0x3f c then some deviceParameters
    else if within 0x40 0x7e c then some string
    else some device
  | deviceParameters =>
    if within 0x20 0x2f c then some deviceFunction
    else if within 0x3c 0x7e c then some string
    else some deviceParameters
  | deviceFunction => if within 0x30 0x7e c then some string else some deviceFunction
  | string => if isTerminator c then none else some string
  | command => if c = '\x07' then none else some command

/-- Whether blanks inside a sequence are shown. -/
def showsBlanks : Sequence → Bool
  | escape | designation | control => true
  | _ => false

end Sequence

/-- How far a text has been read. -/
structure State where
  /-- The sequence that has begun. -/
  sequence : Option Sequence
  /-- Whether the last character was shown; the next one is then read as outside of any sequence. -/
  showing : Bool
deriving DecidableEq, Repr

namespace State

/-- The state before a text. -/
def start : State := ⟨none, false⟩

/-- Reads a character. An escape begins a sequence, and two control characters abort one, wherever they stand. -/
def read (state : State) (c : Char) : State :=
  if c = '\x1b' then ⟨some .escape, false⟩
  else if c = '\x18' || c = '\x1a' then ⟨none, false⟩
  else
    match state.sequence with
    | none => ⟨none, isVisible c⟩
    | some sequence =>
      if state.showing then ⟨if c.toNat < 0x80 then some sequence else none, isVisible c⟩
      else ⟨sequence.after c, sequence.showsBlanks && isBlankControl c⟩

end State

/-- The characters of a text that are shown. -/
def shown (state : State) : List Char → List Char
  | [] => []
  | c :: rest =>
    let next := state.read c
    if next.showing then c :: shown next rest else shown next rest

/-- A text without what a terminal would act upon. -/
def plain (text : String) : String := String.ofList (shown State.start text.toList)

end OverlayHost.Text.Terminal
