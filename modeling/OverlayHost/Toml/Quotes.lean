import OverlayHost.Toml.Scalar

/-!
# Quoted text of a TOML document

Text between quotes, on one line or over several, with escapes or verbatim. Each reader starts after the opening
quotes and answers the text and what follows the closing ones.
-/

set_option autoImplicit false

namespace OverlayHost.Toml

/-- Whether a character may stand in a comment or, quotes and backslashes apart, in quoted text on one line. -/
def isPlain (c : Char) : Bool := c = '\t' || (c.toNat ≥ 0x20 && c.toNat ≠ 0x7F)

/-- Whether a line break is at the start of a text. -/
def startsBreak : List Char → Bool
  | '\n' :: _ => true
  | '\r' :: '\n' :: _ => true
  | _ => false

/-- The character with a number, unless that number is none of a character. -/
def scalar? (n : Nat) : Option Char :=
  if n < 0xD800 || (0xDFFF < n && n < 0x110000) then some (Char.ofNat n) else none

/-- What errors call a character given by four digits. -/
def shortCode : String := "unicode 4-digit hex code"

/-- What errors call a character given by eight digits. -/
def longCode : String := "unicode 8-digit hex code"

/-- The character that hexadecimal digits give the number of; `rest` is the text from the first of them on. -/
def codeChar (name : String) (digits rest : List Char) : Attempt Char :=
  if digits.all isHexDigit then
    match scalar? (valueIn 16 digits) with
    | some c => .ok c
    | none => .error (((Fault.before rest).labelled name).causedBy .outOfRange)
  else .error ((Fault.before rest).labelled name)

/-- The characters that may follow a backslash, as a message shows them. -/
def escapeLetters : List String := ["`b`", "`f`", "`n`", "`r`", "`t`", "`u`", "`U`", "`\\`", "`\"`"]

/-- The character that a letter stands for after a backslash; `rest` follows the letter. -/
def escapeChar (letter : Char) (rest : List Char) : Attempt Char :=
  if letter = 'b' then .ok '\x08'
  else if letter = 't' then .ok '\t'
  else if letter = 'n' then .ok '\n'
  else if letter = 'f' then .ok '\x0c'
  else if letter = 'r' then .ok '\r'
  else if letter = '"' then .ok '"'
  else if letter = '\\' then .ok '\\'
  else if letter = 'u' then .error ((Fault.before rest).labelled shortCode)
  else if letter = 'U' then .error ((Fault.before rest).labelled longCode)
  else
    -- A letter of one byte is passed over before it is found wrong.
    let place := if letter.toNat < 128 then rest else letter :: rest
    .error (((Fault.before place).labelled "escape sequence").expecting escapeLetters)

/-- Text in double quotes, on one line. -/
def basic : List Char → Attempt (List Char × List Char)
  | [] => .error ((Fault.before []).labelled "basic string")
  | c :: rest =>
    if c = '"' then .ok ([], rest)
    else if c = '\\' then
      match rest with
      | 'u' :: a :: b :: c :: d :: rest =>
        (codeChar shortCode [a, b, c, d] (a :: b :: c :: d :: rest)).bind fun found => prepend found (basic rest)
      | 'U' :: a :: b :: c :: d :: e :: f :: g :: h :: rest =>
        (codeChar longCode [a, b, c, d, e, f, g, h] (a :: b :: c :: d :: e :: f :: g :: h :: rest)).bind fun found =>
          prepend found (basic rest)
      | letter :: rest => (escapeChar letter rest).bind fun found => prepend found (basic rest)
      | [] => .error ((Fault.before [c]).labelled "basic string")
    else if isPlain c then prepend c (basic rest)
    else .error ((Fault.before (c :: rest)).labelled "basic string")

/-- Text in single quotes, on one line. -/
def literal : List Char → Attempt (List Char × List Char)
  | [] => .error ((Fault.before []).labelled "literal string")
  | c :: rest =>
    if c = '\'' then .ok ([], rest)
    else if isPlain c then prepend c (literal rest)
    else .error ((Fault.before (c :: rest)).labelled "literal string")

/-- What follows three closing quotes: up to two more quotes belong to the text. -/
def closeTriple (quote : Char) : List Char → List Char × List Char
  | a :: b :: rest =>
    if a = quote && b = quote then ([quote, quote], rest)
    else if a = quote then ([quote], b :: rest)
    else ([], a :: b :: rest)
  | [a] => if a = quote then ([quote], []) else ([], [a])
  | [] => ([], [])

/-- The fault of a text over several lines that is not closed. -/
def openLines (rest : List Char) : Fault := (Fault.before rest).labelled "multiline basic string"

/-- Text in three double quotes, over several lines; a line break is read as a line feed. After a backslash at the end of
a line, blanks and line breaks are passed over up to the next character that is shown. -/
def multilineBasic (skipping : Bool) : List Char → Attempt (List Char × List Char)
  | [] => .error (openLines [])
  | c :: rest =>
    if c = '\n' then
      if skipping then multilineBasic true rest else prepend '\n' (multilineBasic false rest)
    else if c = '\r' then
      match rest with
      | '\n' :: rest => if skipping then multilineBasic true rest else prepend '\n' (multilineBasic false rest)
      | _ => .error (openLines (c :: rest))
    else if skipping && (c = ' ' || c = '\t') then multilineBasic true rest
    else if c = '"' then
      match rest with
      | '"' :: '"' :: rest => .ok (closeTriple '"' rest)
      | ['"'] => .error (openLines (c :: rest))
      | [] => .error (openLines (c :: rest))
      | _ => prepend '"' (multilineBasic false rest)
    else if c = '\\' then
      match rest with
      | 'u' :: a :: b :: c :: d :: rest =>
        (codeChar shortCode [a, b, c, d] (a :: b :: c :: d :: rest)).bind fun found =>
          prepend found (multilineBasic false rest)
      | 'U' :: a :: b :: c :: d :: e :: f :: g :: h :: rest =>
        (codeChar longCode [a, b, c, d, e, f, g, h] (a :: b :: c :: d :: e :: f :: g :: h :: rest)).bind fun found =>
          prepend found (multilineBasic false rest)
      | letter :: rest =>
        if startsBreak ((letter :: rest).dropWhile fun c => c = ' ' || c = '\t') then
          multilineBasic true rest
        else (escapeChar letter rest).bind fun found => prepend found (multilineBasic false rest)
      | [] => .error (openLines [c])
    else if isPlain c then prepend c (multilineBasic false rest)
    else .error (openLines (c :: rest))

/-- Whether a text in three single quotes goes on after quotes that do not close it. -/
def goesOn (rest : List Char) : Bool :=
  let beyond := rest.dropWhile (· = '\'')
  startsBreak beyond || beyond.head?.any isPlain

/-- Text in three single quotes, over several lines; a line break is read as a line feed. -/
def multilineLiteral : List Char → Attempt (List Char × List Char)
  | [] => .error ((Fault.before []).labelled "multiline literal string")
  | c :: rest =>
    if c = '\n' then prepend '\n' (multilineLiteral rest)
    else if c = '\r' then
      match rest with
      | '\n' :: rest => prepend '\n' (multilineLiteral rest)
      | _ => .error ((Fault.before (c :: rest)).labelled "multiline literal string")
    else if c = '\'' then
      match rest with
      | '\'' :: '\'' :: rest => .ok (closeTriple '\'' rest)
      | _ =>
        if goesOn rest then prepend '\'' (multilineLiteral rest)
        else .error ((Fault.before (c :: rest)).labelled "multiline literal string")
    else if isPlain c then prepend c (multilineLiteral rest)
    else .error ((Fault.before (c :: rest)).labelled "multiline literal string")

/-- Drops one line break at the start of a text. -/
def dropBreak : List Char → List Char
  | '\n' :: rest => rest
  | '\r' :: '\n' :: rest => rest
  | cs => cs

/-- Quoted text of any kind, with its opening quotes. -/
def quotedText (cs : List Char) : Attempt (List Char × List Char) :=
  match cs with
  | '"' :: '"' :: '"' :: rest => multilineBasic false (dropBreak rest)
  | '\'' :: '\'' :: '\'' :: rest => multilineLiteral (dropBreak rest)
  | '"' :: rest => basic rest
  | '\'' :: rest => literal rest
  | _ => .error (Fault.absent cs).wantingText

end OverlayHost.Toml
