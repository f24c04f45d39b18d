import OverlayHost.Filter.Call
import OverlayHost.Filter.Restore
import OverlayHost.Text.Utf8

/-!
# A packet filter behind two programs

How the calls on a packet filter are carried out by the programs `iptables` and `iptables-restore`: which of them is
run with what, and what its ending means. Adding no rules runs no program.
-/

set_option autoImplicit false

namespace OverlayHost.Filter.Command

/-- The two programs, by their paths. -/
structure Programs where
  iptables : String := "iptables"
  restore : String := "iptables-restore"

/-- One run of a program. -/
structure Invocation where
  program : String
  arguments : List String
  /-- What the program is given to read. -/
  input : String
  /-- The command as an error calls it. -/
  command : String

/-- How a program ended. -/
inductive Ending where
  | exited (code : Nat)
  /-- A signal ended it; the text names the signal. -/
  | killed (signal : String)
deriving DecidableEq

/-- The ending in words. -/
def Ending.render : Ending → String
  | .exited code => s!"exit status: {code}"
  | .killed signal => s!"signal: {signal}"

/-- What is known of a program that was run: how it ended, and the bytes it wrote. -/
structure Report where
  ending : Ending
  output : List UInt8
  errors : List UInt8

/-- What running a program gives: a report, or why it could not be run. -/
abbrev Run := Except String Report

/-- The run of `iptables` on a table; it waits until no other run is under way. -/
def onTable (programs : Programs) (table : String) (arguments : List String) : Invocation :=
  let named := "-t" :: table :: arguments
  { program := programs.iptables
    arguments := "-w" :: named
    input := ""
    command := " ".intercalate ("iptables" :: named) }

/-- The run of `iptables-restore` on a document; chains keep what they hold. -/
def onDocument (programs : Programs) (document : String) : Invocation where
  program := programs.restore
  arguments := ["--noflush", "-w"]
  input := document
  command := "iptables-restore --noflush"

/-- The run that carries out a call, if it takes one. -/
def invocation? (programs : Programs) (call : Call) : Option Invocation :=
  let table := call.chain.table
  let chain := call.chain.name
  match call.operation with
  | .list => some (onTable programs table ["-S", chain])
  | .newChain => some (onTable programs table ["-N", chain])
  | .clearChain => some (onTable programs table ["-F", chain])
  | .deleteChain => some (onTable programs table ["-X", chain])
  | .delete rule => some (onTable programs table ("-D" :: chain :: rule.tokens))
  | .bulkInsert _ [] => none
  | .bulkInsert position rules =>
    some (onDocument programs (Restore.document table (Restore.insertLines chain position rules)))
  | .bulkAppend [] => none
  | .bulkAppend rules => some (onDocument programs (Restore.document table (Restore.appendLines chain rules)))

/-- What a program wrote, errors first, without the blanks around either part. -/
def combined (output errors : List UInt8) : String :=
  let parts := [Text.trim (Text.Utf8.lossy errors), Text.trim (Text.Utf8.lossy output)]
  " ".intercalate (parts.filter (· ≠ ""))

/-- The lines that a listing holds. -/
def listedLines (output : List UInt8) : List String :=
  (Text.lines (Text.Utf8.lossy output)).filter fun line => !Text.isAllBlank line

/-- The answer to a call, from what running its program gave. -/
def reply (call : Call) (invocation : Invocation) : Run → Reply
  | .error reason => .error (.notStarted invocation.program reason)
  | .ok report =>
    if report.ending = .exited 0 then
      .ok (if call.operation = .list then listedLines report.output else [])
    else .error (.exited invocation.command report.ending.render (combined report.output report.errors))

/-- No argument of a program may hold the character with the number 0. -/
def canStart (invocation : Invocation) : Bool :=
  invocation.arguments.all fun argument => !argument.toList.contains '\x00'

/-- Answers a call through a way to run programs, which is told the run and keeps a state. -/
def perform {σ : Type} (programs : Programs) (run : Invocation → σ → Run × σ) (call : Call) (state : σ) : Reply × σ :=
  match invocation? programs call with
  | none => (.ok [], state)
  | some invocation =>
    if canStart invocation then
      let (result, after) := run invocation state
      (reply call invocation result, after)
    else (reply call invocation (.error "nul byte found in provided data"), state)

end OverlayHost.Filter.Command
