import OverlayHost.Rule

/-!
# Calls on a packet filter

The seven operations of a packet filter, the calls made of them, and the errors that an adapter may answer.
A successful call answers the lines it lists, which are none except for `list`.
-/

set_option autoImplicit false

namespace OverlayHost.Filter

/-- The name of an operation, without its arguments. -/
inductive Kind where
  | list
  | newChain
  | clearChain
  | deleteChain
  | delete
  | bulkInsert
  | bulkAppend
deriving DecidableEq, Repr, Inhabited

/-- The name under which an operation is logged. -/
def Kind.name : Kind → String
  | .list => "list"
  | .newChain => "new_chain"
  | .clearChain => "clear_chain"
  | .deleteChain => "delete_chain"
  | .delete => "delete"
  | .bulkInsert => "bulk_insert"
  | .bulkAppend => "bulk_append"

/-- Every operation name. -/
def Kind.all : List Kind :=
  [.list, .newChain, .clearChain, .deleteChain, .delete, .bulkInsert, .bulkAppend]

/-- What to do to a chain. Positions count from 1. -/
inductive Operation where
  | list
  | newChain
  | clearChain
  | deleteChain
  | delete (rule : Rule)
  | bulkInsert (position : Nat) (rules : List Rule)
  | bulkAppend (rules : List Rule)
deriving DecidableEq, Repr

/-- The name of an operation. -/
def Operation.kind : Operation → Kind
  | .list => .list
  | .newChain => .newChain
  | .clearChain => .clearChain
  | .deleteChain => .deleteChain
  | .delete _ => .delete
  | .bulkInsert _ _ => .bulkInsert
  | .bulkAppend _ => .bulkAppend

/-- A chain of a table. -/
structure ChainId where
  table : String
  name : String
deriving DecidableEq, Repr, Inhabited

/-- One operation on one chain. -/
structure Call where
  chain : ChainId
  operation : Operation
deriving DecidableEq, Repr

/-- The call in one line: operation, table, chain. -/
def Call.render (call : Call) : String :=
  s!"{call.operation.kind.name} {call.chain.table} {call.chain.name}"

/-- Why an adapter could not carry out a call. -/
inductive Error where
  /-- A program ended, but not with success. -/
  | exited (command status output : String)
  /-- A program could not be run at all. -/
  | notStarted (program reason : String)
deriving DecidableEq, Repr

/-- The error in one line. -/
def Error.message : Error → String
  | .exited command status output => s!"{command} exited with {status}: {output}"
  | .notStarted program reason => s!"running {program}: {reason}"

/-- What a call answers: the lines it lists, or why it failed. -/
abbrev Reply := Except Error (List String)

end OverlayHost.Filter
