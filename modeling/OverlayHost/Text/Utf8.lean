/-!
# UTF-8

Encoding characters as bytes, and decoding bytes into characters. Where the bytes are no character, the longest start of
one that they hold, or else one byte, is decoded into nothing; a lossy reading shows the replacement character there.
-/

set_option autoImplicit false

namespace OverlayHost.Text.Utf8

/-- The bytes of characters. -/
def encode (cs : List Char) : List UInt8 := cs.flatMap String.utf8EncodeChar

/-- A character of which some bytes are still to come. -/
structure Pending where
  /-- The bits read so far. -/
  bits : Nat
  /-- The number of bytes to come. -/
  missing : Nat
  /-- The least byte that may come next. -/
  low : UInt8
  /-- The greatest byte that may come next. -/
  high : UInt8

/-- What a byte starts: a whole character, the first part of one, or nothing. -/
inductive Start where
  | char (c : Char)
  | pending (p : Pending)
  | none

/-- What a byte starts. -/
def start (b : UInt8) : Start :=
  if b < 0x80 then .char (Char.ofNat b.toNat)
  else if b < 0xC2 then .none
  else if b < 0xE0 then .pending ⟨b.toNat - 0xC0, 1, 0x80, 0xBF⟩
  else if b < 0xF0 then
    .pending ⟨b.toNat - 0xE0, 2, if b = 0xE0 then 0xA0 else 0x80, if b = 0xED then 0x9F else 0xBF⟩
  else if b < 0xF5 then
    .pending ⟨b.toNat - 0xF0, 3, if b = 0xF0 then 0x90 else 0x80, if b = 0xF4 then 0x8F else 0xBF⟩
  else .none

/-- Decodes bytes after the first part of a character. -/
def decodeFrom : Option Pending → List UInt8 → List (Option Char)
  | none, [] => []
  | some _, [] => [none]
  | none, b :: rest =>
    match start b with
    | .char c => some c :: decodeFrom none rest
    | .pending p => decodeFrom (some p) rest
    | .none => none :: decodeFrom none rest
  | some p, b :: rest =>
    if p.low ≤ b && b ≤ p.high then
      let bits := p.bits * 64 + (b.toNat - 0x80)
      if p.missing = 1 then some (Char.ofNat bits) :: decodeFrom none rest
      else decodeFrom (some ⟨bits, p.missing - 1, 0x80, 0xBF⟩) rest
    else
      none :: match start b with
        | .char c => some c :: decodeFrom none rest
        | .pending p => decodeFrom (some p) rest
        | .none => none :: decodeFrom none rest

/-- Decodes bytes; what is no character is nothing. -/
def decode (bytes : List UInt8) : List (Option Char) := decodeFrom none bytes

/-- The text of the bytes, with replacement characters for what is none. -/
def lossy (bytes : List UInt8) : String :=
  String.ofList ((decode bytes).map fun c => c.getD '\ufffd')

end OverlayHost.Text.Utf8
