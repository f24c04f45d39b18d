/-!
# Base64

Whether bytes are the Base64 form of something. Blanks and line ends may stand anywhere. The form comes in groups of four
digits; the last group may be short, or filled up with padding.
-/

set_option autoImplicit false

namespace OverlayHost.Text.Base64

/-- Why bytes are no Base64 form. -/
inductive Fault where
  | invalidByte (byte : UInt8)
  /-- More follows after padding. -/
  | prematurePadding
  /-- The last group has one digit only, or padding that does not fill it up. -/
  | invalidTrailingPadding
deriving DecidableEq, Repr

/-- The fault in a few words. -/
def Fault.message : Fault → String
  | .invalidByte byte => s!"InvalidCharacter({byte.toNat})"
  | .prematurePadding => "PrematurePadding"
  | .invalidTrailingPadding => "InvalidTrailingPadding"

/-- What a byte that is no blank stands for. -/
inductive Symbol where
  | digit
  | padding
deriving DecidableEq, Repr

/-- What a byte stands for. -/
def symbol? (b : UInt8) : Option Symbol :=
  if b = 61 then some .padding
  else if (65 ≤ b && b ≤ 90) || (97 ≤ b && b ≤ 122) || (48 ≤ b && b ≤ 57) || b = 43 || b = 47 then some .digit
  else none

/-- Whether a byte is passed over. -/
def isBlank (b : UInt8) : Bool := b = 32 || b = 9 || b = 10 || b = 13

/-- The symbols that bytes are looked at together: two groups. -/
def blockSize : Nat := 8

/-- Reads bytes block by block and answers the last block, which alone may have padding; `block` holds the symbols of the
current one, the last first. -/
def lastBlock (block : List Symbol) : List UInt8 → Except Fault (List Symbol)
  | [] => .ok block.reverse
  | b :: rest =>
    if isBlank b then lastBlock block rest
    else match symbol? b with
      | none => .error (.invalidByte b)
      | some symbol =>
        if block.length < blockSize then lastBlock (symbol :: block) rest
        else if block.contains .padding then .error .prematurePadding
        else lastBlock [symbol] rest

/-- Whether a group may be the last. -/
def isLastGroup : List Symbol → Bool
  | [] => true
  | [.digit, .digit] => true
  | [.digit, .digit, last] => last = .digit
  | [.digit, .digit, third, fourth] => third = .digit || fourth = .padding
  | _ => false

/-- Checks that bytes are a Base64 form. -/
def check (bytes : List UInt8) : Except Fault Unit := do
  let block ← lastBlock [] bytes
  let (front, group) := if block.length > 4 then (block.take 4, block.drop 4) else ([], block)
  if front.contains .padding then throw .prematurePadding
  if !isLastGroup group then throw .invalidTrailingPadding

end OverlayHost.Text.Base64
