import OverlayHost.Text.Terminal

/-!
# The command line

The daemon is started in one of two modes, each with the path of a configuration file. The first argument that does not fit
is reported. What is wrong with a use of the option shows only later: at the next option that is known, or at the end.
-/

set_option autoImplicit false

namespace OverlayHost.Daemon

/-- What the daemon does. -/
inductive Mode where
  /-- Keeps the packet filter of this host as the planners want it. -/
  | policyAgent
  /-- Answers the name lookups of the local DNS server. -/
  | dnsAdapter
deriving DecidableEq, Repr

/-- The name of a mode as a command. -/
def Mode.command : Mode → String
  | .policyAgent => "policy-agent"
  | .dnsAdapter => "dns-adapter"

/-- The mode of a command. -/
def Mode.ofCommand? (name : String) : Option Mode :=
  [policyAgent, dnsAdapter].find? fun mode => mode.command = name

/-- What the daemon is for. -/
def about : String := "Overlay host daemon"

/-- What is wrong with a command line. -/
inductive UsageError where
  | noCommand
  | unknownCommand (name : String)
  | unexpectedArgument (argument : String)
  | unexpectedValue (value : String)
  | missingArguments
  | missingValue
  | repeatedOption
deriving DecidableEq, Repr

/-- The error in one line, with arguments in plain text; without a command it is what the daemon is for. -/
def UsageError.message : UsageError → String
  | .noCommand => about
  | .unknownCommand name => s!"error: unrecognized subcommand '{Text.Terminal.plain name}'"
  | .unexpectedArgument argument => s!"error: unexpected argument '{Text.Terminal.plain argument}' found"
  | .unexpectedValue value =>
    s!"error: unexpected value '{Text.Terminal.plain value}' for '--help' found; no more were expected"
  | .missingArguments => "error: the following required arguments were not provided:"
  | .missingValue => "error: a value is required for '--config <CONFIG>' but none was supplied"
  | .repeatedOption => "error: the argument '--config <CONFIG>' cannot be used multiple times"

/-- What a command line asks for. -/
inductive Request where
  | help
  | run (mode : Mode) (config : String)
deriving DecidableEq, Repr

namespace Arguments

/-- How one argument is to be read. -/
inductive Shape where
  | help
  | helpWith (value : String)
  /-- The option, with its value if that follows an equals sign. -/
  | config (value : Option String)
  /-- Two dashes alone, after which nothing is read as an option. -/
  | separator
  /-- Something that looks like an option, as it is to be reported. -/
  | unknownOption (shown : String)
  | plain

/-- How an argument is to be read where the option is known, or is not. -/
def shape (hasOption : Bool) (argument : String) : Shape :=
  let cs := argument.toList
  match cs with
  | '-' :: '-' :: rest =>
    let name := rest.takeWhile (· ≠ '=')
    let value := (rest.drop name.length).tail?.map String.ofList
    if rest.isEmpty then .separator
    else if name = "help".toList then
      match value with
      | some value => .helpWith value
      | none => .help
    else if hasOption && name = "config".toList then .config value
    else .unknownOption (String.ofList ('-' :: '-' :: name))
  | ['-'] => .plain
  | '-' :: 'h' :: _ => .help
  | '-' :: c :: _ => .unknownOption (String.ofList ['-', c])
  | _ => .plain

/-- A use of the option. -/
inductive Use where
  /-- Its value is the next argument. -/
  | awaiting
  | given (value : String)
deriving DecidableEq, Repr

/-- What the arguments so far say of the option: the value that counts, and a use that has not been checked yet. -/
structure Progress where
  value : Option String := none
  latest : Option Use := none
deriving DecidableEq, Repr

/-- Checks the latest use, whose value then counts: there has to be one, for the first time, and it may not be empty. -/
def Progress.settle (progress : Progress) : Except UsageError (Option String) :=
  match progress.latest with
  | none => .ok progress.value
  | some .awaiting => .error .missingValue
  | some (.given value) =>
    if progress.value.isSome then .error .repeatedOption
    else if value = "" then .error .missingValue
    else .ok (some value)

/-- What the arguments after a command ask for once all are read. -/
def Progress.finish (mode : Mode) (progress : Progress) : Except UsageError Request := do
  match ← progress.settle with
  | some config => return .run mode config
  | none => throw .missingArguments

/-- Reads the arguments after a command. A value that follows an equals sign is checked at once. -/
def options (mode : Mode) (progress : Progress) : List String → Except UsageError Request
  | [] => progress.finish mode
  | argument :: rest =>
    match shape true argument with
    | .help => progress.settle.map fun _ => .help
    | .helpWith value => .error (.unexpectedValue value)
    | .unknownOption shown => .error (.unexpectedArgument shown)
    | .separator =>
      match rest with
      | [] => progress.finish mode
      | extra :: _ => .error (.unexpectedArgument extra)
    | .config none => do options mode ⟨← progress.settle, some .awaiting⟩ rest
    | .config (some value) => do
      let before ← progress.settle
      options mode ⟨← Progress.settle ⟨before, some (.given value)⟩, none⟩ rest
    | .plain =>
      if progress.latest = some .awaiting then options mode { progress with latest := some (.given argument) } rest
      else .error (.unexpectedArgument argument)

/-- Whether a name is one of a command; asking for help is one too. -/
def isCommand (name : String) : Bool := name = "help" || (Mode.ofCommand? name).isSome

/-- Reads the command that help is asked for. -/
def helpFor : List String → Except UsageError Request
  | [] => .ok .help
  | name :: rest =>
    if isCommand name then
      match rest with
      | [] => .ok .help
      | other :: _ => .error (.unknownCommand other)
    else .error (.unknownCommand name)

/-- Reads a command line. -/
def parse : List String → Except UsageError Request
  | [] => .error .noCommand
  | argument :: rest =>
    match shape false argument with
    | .help => .ok .help
    | .helpWith value => .error (.unexpectedValue value)
    | .unknownOption shown => .error (.unexpectedArgument shown)
    | .separator =>
      match rest with
      | [] => .error .noCommand
      | name :: _ => .error (if isCommand name then .unexpectedArgument name else .unknownCommand name)
    | _ =>
      match Mode.ofCommand? argument with
      | some mode => options mode {} rest
      | none => if argument = "help" then helpFor rest else .error (.unknownCommand argument)

end Arguments

end OverlayHost.Daemon
