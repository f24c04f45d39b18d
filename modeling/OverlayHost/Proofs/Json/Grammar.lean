import OverlayHost.Json.Text

/-!
# The grammar of JSON

Which bytes are a value of JSON, and which characters a text of JSON stands for. What is between the quotes of a text is
looked at byte by byte in `IsText`; whether it can be read, as UTF-8 and without half a pair of surrogates, is the question
of `Spells`. So `IsValue` leaves open how the bytes of texts are to be read, which a reader of texts cannot.

Values are kept as the bytes that write them, and an object with its members in order, under any names.
-/

set_option autoImplicit false

namespace OverlayHost.Json

/-- The byte of an ASCII character. -/
def ascii (c : Char) : UInt8 := UInt8.ofNat c.toNat

/-- The bytes of a word of ASCII characters. -/
def word (s : String) : List UInt8 := s.toList.map ascii

namespace Grammar

/-! ## Blank space and numbers -/

/-- Blank space. -/
structure Blank where
  bytes : List UInt8
  isBlank : ∀ b ∈ bytes, Cursor.isBlank b = true

namespace Blank

/-- No blank space. -/
def empty : Blank := ⟨[], nofun⟩

/-- Blank space after other blank space. -/
def append (before after : Blank) : Blank where
  bytes := before.bytes ++ after.bytes
  isBlank b hb := (List.mem_append.mp hb).elim (before.isBlank b) (after.isBlank b)

end Blank

/-- One or more digits. -/
structure IsDigits (bytes : List UInt8) : Prop where
  some : bytes ≠ []
  digits : ∀ b ∈ bytes, Cursor.isDigit b = true

/-- Digits without a zero in front of others. -/
structure IsInteger (bytes : List UInt8) : Prop where
  isDigits : IsDigits bytes
  zero : bytes.head? = some (ascii '0') → bytes = [ascii '0']

/-- What may follow an integer: digits after a point. -/
inductive IsFraction : List UInt8 → Prop where
  | absent : IsFraction []
  | present {digits : List UInt8} (h : IsDigits digits) : IsFraction (ascii '.' :: digits)

/-- The sign of an exponent. -/
def signs : List (List UInt8) := [[], [ascii '+'], [ascii '-']]

/-- What may follow an integer and its fraction: digits after a letter. -/
inductive IsExponent : List UInt8 → Prop where
  | absent : IsExponent []
  | present {letter : UInt8} {sign digits : List UInt8} (hletter : letter ∈ [ascii 'e', ascii 'E']) (hsign : sign ∈ signs)
      (h : IsDigits digits) : IsExponent (letter :: (sign ++ digits))

/-- A number without a sign. -/
inductive IsMagnitude : List UInt8 → Prop where
  | mk {whole fraction exponent : List UInt8} (hwhole : IsInteger whole) (hfraction : IsFraction fraction)
      (hexponent : IsExponent exponent) : IsMagnitude (whole ++ (fraction ++ exponent))

/-! ## Texts -/

/-- Four digits that write a number in base sixteen. -/
structure IsHex (digits : List UInt8) (n : Nat) : Prop where
  length : digits.length = 4
  value : Text.hex? digits = some n

/-- What may follow a backslash in a text. -/
inductive IsEscape : List UInt8 → Prop where
  | letter {c : Char} (h : c ∈ ['"', '\\', '/', 'b', 'f', 'n', 'r', 't']) : IsEscape [ascii c]
  | unit {digits : List UInt8} {n : Nat} (h : IsHex digits n) : IsEscape (ascii 'u' :: digits)

/-- What may stand between the quotes of a text. -/
inductive IsText : List UInt8 → Prop where
  | nil : IsText []
  | plain {b : UInt8} {rest : List UInt8} (hb : Text.isPlain b = true) (hrest : IsText rest) : IsText (b :: rest)
  | escape {escape rest : List UInt8} (hescape : IsEscape escape) (hrest : IsText rest) :
      IsText (ascii '\\' :: (escape ++ rest))

/-- The character whose number is written, or the numbers of its two surrogates. -/
inductive IsCodePoint : List UInt8 → Char → Prop where
  | unit {digits : List UInt8} {n : Nat} (h : IsHex digits n) (hleading : Text.isLeading n = false)
      (htrailing : Text.isTrailing n = false) : IsCodePoint digits (Char.ofNat n)
  | pair {first second : List UInt8} {n m : Nat} (hfirst : IsHex first n) (hleading : Text.isLeading n = true)
      (hsecond : IsHex second m) (htrailing : Text.isTrailing m = true) :
      IsCodePoint (first ++ ascii '\\' :: ascii 'u' :: second)
        (Char.ofNat (0x10000 + (n - 0xD800) * 1024 + (m - 0xDC00)))

/-- The character that an escape stands for. -/
inductive StandsFor : List UInt8 → Char → Prop where
  | letter {letter c : Char} (h : Text.escaped? letter = some c) : StandsFor [ascii letter] c
  | codePoint {digits : List UInt8} {c : Char} (h : IsCodePoint digits c) : StandsFor (ascii 'u' :: digits) c

/-- The characters that a text stands for. -/
inductive Spells : List UInt8 → List Char → Prop where
  | nil : Spells [] []
  | plain {c : Char} {rest : List UInt8} {cs : List Char} (hquote : c ≠ '"') (hbackslash : c ≠ '\\')
      (hcontrol : 32 ≤ c.toNat) (hrest : Spells rest cs) : Spells (String.utf8EncodeChar c ++ rest) (c :: cs)
  | escape {escape rest : List UInt8} {c : Char} {cs : List Char} (hescape : StandsFor escape c)
      (hrest : Spells rest cs) : Spells (ascii '\\' :: (escape ++ rest)) (c :: cs)

/-! ## Values -/

/-- A value with the blank space around it. -/
structure Item where
  before : Blank
  value : List UInt8
  after : Blank

namespace Item

def bytes (item : Item) : List UInt8 := item.before.bytes ++ (item.value ++ item.after.bytes)

end Item

/-- A member of an object: what is between the quotes of its name, its value, and the blank space around both. -/
structure Member where
  before : Blank
  name : List UInt8
  colon : Blank
  item : Item

namespace Member

def bytes (member : Member) : List UInt8 :=
  member.before.bytes ++
    (ascii '"' :: (member.name ++ ascii '"' :: (member.colon.bytes ++ ascii ':' :: member.item.bytes)))

def value (member : Member) : List UInt8 := member.item.value

/-- The name stands for these characters. -/
def IsNamed (member : Member) (name : String) : Prop := Spells member.name name.toList

/-- The name stands for some characters. -/
def IsReadable (member : Member) : Prop := ∃ name, member.IsNamed name

end Member

/-- Parts with commas between them. -/
def separated (parts : List (List UInt8)) : List UInt8 := [ascii ','].intercalate parts

theorem separated_cons (part : List UInt8) (parts : List (List UInt8)) :
    separated (part :: parts) = part ++ parts.flatMap (ascii ',' :: ·) := by
  induction parts generalizing part with
  | nil => simp [separated]
  | cons next parts ih =>
    rw [List.flatMap_cons, List.cons_append, ← ih next, separated, separated, List.intercalate_cons_cons]
    simp

/-- The list of some items. -/
def listOf (inside : Blank) (items : List Item) : List UInt8 :=
  ascii '[' :: (inside.bytes ++ (separated (items.map Item.bytes) ++ [ascii ']']))

/-- The object of some members. -/
def objectOf (inside : Blank) (members : List Member) : List UInt8 :=
  ascii '\x7b' :: (inside.bytes ++ (separated (members.map Member.bytes) ++ [ascii '\x7d']))

/-- A value of JSON. -/
inductive IsValue : List UInt8 → Prop where
  | null : IsValue (word "null")
  | true : IsValue (word "true")
  | false : IsValue (word "false")
  | positive {magnitude : List UInt8} (h : IsMagnitude magnitude) : IsValue magnitude
  | negative {magnitude : List UInt8} (h : IsMagnitude magnitude) : IsValue (ascii '-' :: magnitude)
  | text {inside : List UInt8} (h : IsText inside) : IsValue (ascii '"' :: (inside ++ [ascii '"']))
  | list {inside : Blank} {items : List Item} (h : ∀ item ∈ items, IsValue item.value) : IsValue (listOf inside items)
  | object {inside : Blank} {members : List Member} (hnames : ∀ member ∈ members, IsText member.name)
      (h : ∀ member ∈ members, IsValue member.value) : IsValue (objectOf inside members)

end Grammar

end OverlayHost.Json
