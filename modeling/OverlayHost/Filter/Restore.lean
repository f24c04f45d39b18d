import OverlayHost.Rule
import OverlayHost.Text.Blank

/-!
# Restore documents

The documents that add many rules to a table at once: a line that names the table, one line for each rule, and a line
that commits them. A token that a reader would not take as one plain word is put between double quotes.
-/

set_option autoImplicit false

namespace OverlayHost.Filter.Restore

/-- Whether a character keeps a token from being a plain word. -/
def needsQuotes (c : Char) : Bool := Text.isBlank c || c = '"' || c = '\'' || c = '\\'

/-- One character between double quotes. -/
def escape (c : Char) : List Char := if c = '"' || c = '\\' then ['\\', c] else [c]

/-- A token as one word of a line. -/
def word (token : String) : String :=
  if token ≠ "" && !token.toList.any needsQuotes then token
  else String.ofList ('"' :: token.toList.flatMap escape ++ ['"'])

/-- The tokens of a rule as words of a line. -/
def words (rule : Rule) : String := " ".intercalate (rule.tokens.map word)

/-- The line that appends a rule to a chain. -/
def appendLine (chain : String) (rule : Rule) : String := s!"-A {chain} {words rule}"

/-- The line that inserts a rule into a chain at a position. -/
def insertLine (chain : String) (position : Nat) (rule : Rule) : String := s!"-I {chain} {position} {words rule}"

/-- The lines that append rules to a chain. -/
def appendLines (chain : String) (rules : List Rule) : List String := rules.map (appendLine chain)

/-- The lines that insert rules into a chain, the first at a position and each other after the one before. -/
def insertLines (chain : String) (position : Nat) : List Rule → List String
  | [] => []
  | rule :: rest => insertLine chain position rule :: insertLines chain (position + 1) rest

/-- The document that carries out lines on a table. -/
def document (table : String) (lines : List String) : String :=
  s!"*{table}\n" ++ String.join (lines.map (· ++ "\n")) ++ "COMMIT\n"

end OverlayHost.Filter.Restore
