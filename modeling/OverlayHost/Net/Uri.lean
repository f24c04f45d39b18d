/-!
# URIs

A URI of a request: scheme, authority, path and query. A fragment is dropped. What is read without a scheme is a path, if it
starts with a slash, or an authority. Writing a URI puts a slash where a path has to stand.
-/

set_option autoImplicit false

namespace OverlayHost.Net

/-- A URI. -/
structure Uri where
  scheme : Option String
  authority : Option String
  path : String
  query : Option String
deriving DecidableEq, Repr

/-- Why a text is no URI. -/
inductive UriError where
  | empty
  | tooLong
  | schemeTooLong
  | invalidCharacter
  | invalidAuthority
  | invalidFormat
deriving DecidableEq, Repr

/-- The error in words. -/
def UriError.message : UriError → String
  | .empty => "empty string"
  | .tooLong => "uri too long"
  | .schemeTooLong => "scheme too long"
  | .invalidCharacter => "invalid uri character"
  | .invalidAuthority => "invalid authority"
  | .invalidFormat => "invalid format"

namespace Uri

/-- Whether a character may stand in a scheme. -/
def isSchemeChar (c : Char) : Bool := c.isAlphanum || c = '+' || c = '-' || c = '.' || c = '~'

/-- The characters other than letters and digits that may stand in an authority. -/
def authorityMarks : List Char :=
  ['!', '$', '&', '\'', '(', ')', '*', '+', ',', '-', '.', ':', ';', '=', '@', '[', ']', '_', '~']

/-- Whether a character may stand in an authority, wherever it stands. -/
def isAuthorityChar (c : Char) : Bool := c.isAlphanum || authorityMarks.contains c

/-- Whether a character ends an authority. -/
def endsAuthority (c : Char) : Bool := c = '/' || c = '?' || c = '#'

/-- Whether a character may stand in a path. -/
def isPathChar (c : Char) : Bool :=
  let n := c.toNat
  n > 0x20 && c ≠ '<' && c ≠ '>' && n ≠ 0x60 && n ≠ 0x7F

/-- Whether a character may stand in a query. -/
def isQueryChar (c : Char) : Bool :=
  let n := c.toNat
  n > 0x20 && c ≠ '<' && c ≠ '>' && c ≠ '"' && n ≠ 0x7F

/-- What is known of an authority after some of its characters. -/
structure AuthorityScan where
  /-- The colons since the last at sign or closing bracket. -/
  colons : Nat := 0
  opened : Bool := false
  closed : Bool := false
  /-- Whether a percent sign came since the last at sign or closing bracket. -/
  percent : Bool := false
  /-- Whether the last character was an at sign. -/
  atSign : Bool := false

/-- The most colons that may come together. -/
def maxColons : Nat := 8

/-- Takes one more character of an authority. -/
def AuthorityScan.next (scan : AuthorityScan) (c : Char) : Except UriError AuthorityScan :=
  let scan := { scan with atSign := c = '@' }
  match c with
  | ':' => if scan.colons ≥ maxColons then .error .invalidAuthority else .ok { scan with colons := scan.colons + 1 }
  | '[' => if scan.percent || scan.opened then .error .invalidAuthority else .ok { scan with opened := true }
  | ']' =>
    if !scan.opened || scan.closed then .error .invalidAuthority
    else .ok { scan with closed := true, colons := 0, percent := false }
  | '@' => .ok { scan with colons := 0, percent := false }
  | '%' => .ok { scan with percent := true }
  | c => if isAuthorityChar c then .ok scan else .error .invalidCharacter

/-- Whether an authority may end here. -/
def AuthorityScan.accepts (scan : AuthorityScan) : Bool :=
  scan.opened = scan.closed && scan.colons ≤ 1 && !scan.atSign && !scan.percent

/-- Splits off the authority at the start of a text. -/
def splitAuthority (cs : List Char) : Except UriError (List Char × List Char) := do
  let authority := cs.takeWhile fun c => !endsAuthority c
  let scan ← authority.foldlM AuthorityScan.next {}
  if scan.accepts then return (authority, cs.dropWhile fun c => !endsAuthority c)
  else throw .invalidAuthority

/-- The path and the query that a text writes; a fragment after them is dropped. -/
def splitPath (cs : List Char) : Except UriError (String × Option String) := do
  let path := cs.takeWhile fun c => c ≠ '?' && c ≠ '#'
  let rest := cs.dropWhile fun c => c ≠ '?' && c ≠ '#'
  let shown := if path.isEmpty then "/" else String.ofList path
  if !path.all isPathChar then throw .invalidCharacter
  match rest with
  | '?' :: after =>
    let query := after.takeWhile (· ≠ '#')
    if query.all isQueryChar then return (shown, some (String.ofList query)) else throw .invalidCharacter
  | _ => return (shown, none)

/-- The most characters of a scheme. -/
def maxScheme : Nat := 64

/-- Whether a scheme is one of the two that are known, in any case. -/
def isKnownScheme (scheme : List Char) : Bool :=
  let lowered := scheme.map Char.toLower
  lowered = ['h', 't', 't', 'p'] || lowered = ['h', 't', 't', 'p', 's']

/-- Splits off the scheme at the start of a text, if there is one, with what separates it from the rest. The two known
schemes are written in lower case, others are kept as they are. -/
def splitScheme (cs : List Char) : Except UriError (Option String × List Char) :=
  let scheme := cs.takeWhile isSchemeChar
  match cs.drop scheme.length with
  | ':' :: '/' :: '/' :: rest =>
    if isKnownScheme scheme then .ok (some (String.ofList (scheme.map Char.toLower)), rest)
    else if cs.length ≤ 3 then .ok (none, cs)
    else if scheme.length > maxScheme then .error .schemeTooLong
    else .ok (some (String.ofList scheme), rest)
  | _ => .ok (none, cs)

/-- The most bytes of a URI. -/
def maxBytes : Nat := 65534

/-- The URI that a text writes. -/
def ofString (s : String) : Except UriError Uri := do
  let cs := s.toList
  if s.utf8ByteSize > maxBytes then throw .tooLong
  match cs with
  | [] => throw .empty
  | ['*'] => return { scheme := none, authority := none, path := "*", query := none }
  | '/' :: _ =>
    let (path, query) ← splitPath cs
    return { scheme := none, authority := none, path, query }
  | _ =>
    let (scheme, afterScheme) ← splitScheme cs
    if afterScheme.isEmpty then throw .empty
    let (authority, rest) ← splitAuthority afterScheme
    if scheme.isNone then
      if rest.isEmpty then
        return { scheme := none, authority := some (String.ofList authority), path := "", query := none }
      else if cs.length = 1 then throw .invalidCharacter
      else throw .invalidFormat
    else if authority.isEmpty then throw .invalidFormat
    else
      let (path, query) ← splitPath rest
      return { scheme, authority := some (String.ofList authority), path, query }

/-- The URI as text. -/
def render (uri : Uri) : String :=
  let scheme := match uri.scheme with
    | some scheme => scheme ++ "://"
    | none => ""
  let query := match uri.query with
    | some query => "?" ++ query
    | none => ""
  scheme ++ uri.authority.getD "" ++ uri.path ++ query

end Uri

end OverlayHost.Net
