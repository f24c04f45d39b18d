import OverlayHost.Toml.Quotes
import OverlayHost.Toml.Tree

/-!
# TOML documents

Reads the text of a TOML 1.0 document. `Document.parse` answers the tree of the document, or the first fault of a text that
is no document: bad syntax, a key given twice, a number out of range, or nesting that is too deep.
-/

set_option autoImplicit false

namespace OverlayHost.Toml

open Text (Span)

/-- Values may be nested in fewer levels than this, and dotted keys have fewer parts. -/
def depthLimit : Nat := 80

/-- Whether a character is a blank within a line. -/
def isBlank (c : Char) : Bool := c = ' ' || c = '\t'

/-- The text after the blanks at its start. -/
def dropBlanks (cs : List Char) : List Char := cs.dropWhile isBlank

/-- What follows a comment, which stands up to the line break. -/
def dropComment (cs : List Char) : List Char := cs.dropWhile isPlain

/-- What follows the rest of a line, which may hold only blanks and a comment. -/
def afterLine (cs : List Char) : Attempt (List Char) :=
  let rest := match dropBlanks cs with
    | '#' :: comment => dropComment comment
    | rest => rest
  if rest.isEmpty || startsBreak rest then .ok (dropBreak rest)
  else .error ((Fault.before rest).expecting ["newline", "`#`"])

/-- What follows a line break that has to be there. A return that is not followed by a line feed is passed over before
it is found wrong. -/
def afterBreak (cs : List Char) : Attempt (List Char) :=
  if startsBreak cs then .ok (dropBreak cs)
  else match cs with
    | '\r' :: rest => .error (.absent rest)
    | _ => .error (.absent cs)

/-- What follows blanks, comments and line breaks, which all may stand between the items of a list. A comment has to end
with its line. -/
def afterSpace : Nat → List Char → Attempt (List Char)
  | 0, cs => .ok cs
  | fuel + 1, cs =>
    match dropBlanks cs with
    | '#' :: comment => (afterBreak (dropComment comment)).bind (afterSpace fuel)
    | '\n' :: rest => afterSpace fuel rest
    | '\r' :: rest => (afterBreak ('\r' :: rest)).bind (afterSpace fuel)
    | rest => .ok rest

/-- One part of a key at the start of a text, and the rest. -/
def keyPart (cs : List Char) : Attempt (Key × List Char) := do
  let (name, rest) ← match cs with
    | '"' :: rest => label "key" (basic rest)
    | '\'' :: rest => label "key" (literal rest)
    | _ =>
      let bare := cs.takeWhile isBareKeyChar
      if bare.isEmpty then throw ((Fault.absent cs).labelled "key") else pure (bare, cs.dropWhile isBareKeyChar)
  return (⟨String.ofList name, .between cs rest⟩, rest)

/-- The parts of a key that follow points. A point that no part follows is left. -/
def moreKeyParts : Nat → List Char → Attempt (List Key × List Char)
  | 0, cs => .ok ([], cs)
  | fuel + 1, cs =>
    match cs with
    | '.' :: rest =>
      match keyPart (dropBlanks rest) with
      | .error fault => if fault.committed then .error fault else .ok ([], cs)
      | .ok (part, rest) =>
        (moreKeyParts fuel (dropBlanks rest)).map fun (parts, rest) => (part :: parts, rest)
    | _ => .ok ([], cs)

/-- A key: the path to its last part, that part, and the rest after blanks. -/
def key (cs : List Char) : Attempt ((List Key × Key) × List Char) := do
  let (first, rest) ← keyPart (dropBlanks cs)
  let (parts, rest) ← moreKeyParts rest.length (dropBlanks rest)
  if parts.length + 1 < depthLimit then
    return (((first :: parts).dropLast, parts.getLast?.getD first), rest)
  else throw ((Fault.absent cs).causedBy .tooDeep)

/-- What follows the equals sign after a key. -/
def afterEquals (cs : List Char) : Attempt (List Char) :=
  match cs with
  | '=' :: rest => .ok (dropBlanks rest)
  | _ => .error ((Fault.before cs).expecting ["`.`", "`=`"])

/-- Puts the members of a table in braces together. -/
def assemble (members : List ((List Key × Key) × Node)) : Except Cause Fields :=
  members.foldlM (fun fields ((path, key), node) => fields.assign true none path key node) []

mutual

/-- The value at the start of a text, and the rest; `depth` counts the lists and tables around it. -/
def value : Nat → Nat → List Char → Attempt (Node × List Char)
  | 0, _, cs => .error (.before cs)
  | fuel + 1, depth, cs =>
    match cs with
    | '[' :: rest =>
      if depth + 1 < depthLimit then
        match rest with
        | ']' :: rest => .ok (.list [] (.between cs rest), rest)
        | _ => (items fuel (depth + 1) rest).bind fun (items, rest) =>
          let rest := match items, rest with
            | _ :: _, ',' :: rest => rest
            | _, rest => rest
          (commit (afterSpace (rest.length + 1) rest)).bind fun rest =>
            match rest with
            | ']' :: rest => .ok (.list items (.between cs rest), rest)
            | _ => .error (((Fault.before rest).labelled "array").expecting ["`]`"])
      else .error ((Fault.before cs).causedBy .tooDeep)
    | '\x7b' :: rest =>
      if depth + 1 < depthLimit then
        (members fuel (depth + 1) rest).bind fun (members, after) =>
          ((assemble members).mapError (Fault.before rest).causedBy).bind fun fields =>
            match dropBlanks after with
            | '\x7d' :: after => .ok (.table .braces (some (.between cs after)) fields, after)
            | after => .error (((Fault.before after).labelled "inline table").expecting ["`\x7d`"])
      else .error ((Fault.before cs).causedBy .tooDeep)
    | '"' :: _ => (quotedText cs).map fun (text, rest) =>
      (.scalar (.text (String.ofList text)) (.between cs rest), rest)
    | '\'' :: _ => (quotedText cs).map fun (text, rest) =>
      (.scalar (.text (String.ofList text)) (.between cs rest), rest)
    | _ => (scalar cs).map fun (value, rest) => (.scalar value (.between cs rest), rest)

/-- One item of a list with the space around it. -/
def item : Nat → Nat → List Char → Attempt (Node × List Char)
  | 0, _, cs => .error (.before cs)
  | fuel + 1, depth, cs =>
    (afterSpace (cs.length + 1) cs).bind fun rest =>
      (value fuel depth rest).bind fun (node, rest) =>
        (afterSpace (rest.length + 1) rest).map fun rest => (node, rest)

/-- The items of a list with commas between them, as many as there are. A comma that no item follows is left. -/
def items : Nat → Nat → List Char → Attempt (List Node × List Char)
  | 0, _, cs => .error (.before cs)
  | fuel + 1, depth, cs =>
    match item fuel depth cs with
    | .error fault => if fault.committed then .error fault else .ok ([], cs)
    | .ok (node, rest) =>
      match rest with
      | ',' :: more => (items fuel depth more).map fun (nodes, after) =>
        if nodes.isEmpty then ([node], rest) else (node :: nodes, after)
      | _ => .ok ([node], rest)

/-- The members of a table in braces with commas between them, as many as there are. A comma that no member follows is
left. -/
def members : Nat → Nat → List Char → Attempt (List ((List Key × Key) × Node) × List Char)
  | 0, _, cs => .error (.before cs)
  | fuel + 1, depth, cs =>
    match key cs with
    | .error fault => if fault.committed then .error fault else .ok ([], cs)
    | .ok (key, rest) =>
      (afterEquals rest).bind fun rest =>
        (commit (value fuel depth rest)).bind fun (node, rest) =>
          match dropBlanks rest with
          | ',' :: more => (members fuel depth more).map fun (others, after) =>
            if others.isEmpty then ([(key, node)], ',' :: more) else ((key, node) :: others, after)
          | rest => .ok ([(key, node)], rest)

end

/-- What follows the closing brackets of a header. -/
def afterBrackets (isItem : Bool) (cs : List Char) : Attempt (List Char) :=
  match isItem, cs with
  | true, ']' :: ']' :: rest => .ok rest
  | true, _ => .error ((Fault.before cs).expecting ["`.`", "`]]`"])
  | false, ']' :: rest => .ok rest
  | false, _ => .error ((Fault.before cs).expecting ["`.`", "`]`"])

/-- Reads the header of a table and the rest of its line. -/
def header (builder : Builder) (cs : List Char) : Attempt (Builder × List Char) :=
  label "table header" do
    let (isItem, inside) ← match cs with
      | '[' :: '[' :: rest => pure (true, rest)
      | '[' :: c :: rest => pure (false, c :: rest)
      | _ => throw (.before cs)
    let ((path, key), rest) ← commit (key inside)
    let after ← afterBrackets isItem rest
    let next ← afterLine after
    let start := if isItem then builder.openItem path key else builder.openTable path key
    return (← (start (.between cs after)).mapError (Fault.before cs).causedBy, next)

/-- Reads a key with its value and the rest of their line. -/
def assignment (builder : Builder) (cs : List Char) : Attempt (Builder × List Char) := do
  let ((path, key), rest) ← commit (key cs)
  let written ← afterEquals rest
  let (node, rest) ← commit (value (3 * written.length + 4) 0 written)
  let next ← afterLine rest
  return (← (builder.assign path key node).mapError (Fault.before cs).causedBy, next)

/-- Reads the lines of a document, one statement each. -/
def statements : Nat → Builder → List Char → Attempt Builder
  | 0, builder, _ => .ok builder
  | fuel + 1, builder, cs =>
    match dropBlanks cs with
    | [] => .ok builder
    | '#' :: comment =>
      let rest := dropComment comment
      if rest.isEmpty || startsBreak rest then statements fuel builder (dropBreak rest) else .error (.before rest)
    | '\n' :: rest => statements fuel builder rest
    | '\r' :: rest =>
      if startsBreak ('\r' :: rest) then statements fuel builder (dropBreak ('\r' :: rest))
      else .error (.before ('\r' :: rest))
    | '[' :: rest => (header builder ('[' :: rest)).bind fun (builder, rest) => statements fuel builder rest
    | cs => (assignment builder cs).bind fun (builder, rest) => statements fuel builder rest

/-- A document: its outermost table. -/
structure Document where
  root : Node

namespace Document

/-- The document that a text writes; a byte-order mark may stand in front. -/
def parse (text : String) : Except Fault Document := do
  let cs := text.toList
  let body := match cs with
    | '\ufeff' :: rest => rest
    | cs => cs
  let builder ← statements (body.length + 1) (Builder.empty cs.length) body
  let root ← builder.complete.mapError (Fault.before []).causedBy
  return ⟨.table .header none root⟩

/-- The fields of the outermost table with their values. -/
def values (document : Document) : List (String × Config.Value) := fieldValues document.root.fields

/-- The place of what a path leads to. -/
def place? (document : Document) (path : List Config.Step) : Option Span := placeOf none document.root path

end Document

end OverlayHost.Toml
