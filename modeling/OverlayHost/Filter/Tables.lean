import OverlayHost.Filter.Call

/-!
# The tables of a packet filter

The content of a packet filter: the rules of every chain of every table. `Tables.apply` carries out one call; a
call that is refused changes nothing.
-/

set_option autoImplicit false

namespace OverlayHost.Filter

/-- The rules of every chain; no chain is listed twice. -/
structure Tables where
  entries : List (ChainId × List Rule)
  nodup : (entries.map Prod.fst).Nodup

namespace Tables

/-- The chains that every new filter has, in the table that rules go to by default. -/
def builtinChains : List String := ["INPUT", "FORWARD", "OUTPUT"]

/-- A filter whose builtin chains are empty. -/
def initial : Tables where
  entries := builtinChains.map fun name => (⟨"filter", name⟩, [])
  nodup := by decide

/-- The rules of a chain, if there is such a chain. -/
def rules? (tables : Tables) (id : ChainId) : Option (List Rule) :=
  (tables.entries.find? fun entry => entry.1 = id).map Prod.snd

/-- Whether there is such a chain. -/
def hasChain (tables : Tables) (id : ChainId) : Bool := (tables.rules? id).isSome

/-- Adds an empty chain; an existing chain stays as it is. -/
def addChain (tables : Tables) (id : ChainId) : Tables :=
  if h : id ∈ tables.entries.map Prod.fst then tables
  else
    { entries := tables.entries ++ [(id, [])]
      nodup := by
        rw [List.map_append, List.nodup_append]
        refine ⟨tables.nodup, by simp, ?_⟩
        intro a ha b hb hab
        simp only [List.map_cons, List.map_nil, List.mem_singleton] at hb
        exact h (hb ▸ hab ▸ ha) }

/-- Removes a chain with its rules. -/
def removeChain (tables : Tables) (id : ChainId) : Tables where
  entries := tables.entries.filter fun entry => entry.1 ≠ id
  nodup := tables.nodup.sublist (List.Sublist.map _ List.filter_sublist)

/-- Changes the rules of one chain. -/
def modify (tables : Tables) (id : ChainId) (change : List Rule → List Rule) : Tables where
  entries := tables.entries.map fun entry => if entry.1 = id then (entry.1, change entry.2) else entry
  nodup := by
    have same : (tables.entries.map fun entry => if entry.1 = id then (entry.1, change entry.2) else entry).map
        Prod.fst = tables.entries.map Prod.fst := by
      rw [List.map_map]
      refine List.map_congr_left fun entry _ => ?_
      by_cases h : entry.1 = id <;> simp [h]
    rw [same]
    exact tables.nodup

/-- The chains of a table with their rules. -/
def chainsOf (tables : Tables) (table : String) : List (String × List Rule) :=
  tables.entries.filterMap fun entry => if entry.1.table = table then some (entry.1.name, entry.2) else none

/-- Whether some rule of a table jumps to a chain. -/
def isReferenced (tables : Tables) (id : ChainId) : Bool :=
  (tables.chainsOf id.table).any fun chain => chain.2.any fun rule => rule.target? = some id.name

/-- The targets that need no chain. -/
def standardTargets : List String := ["ACCEPT", "DROP", "REJECT", "RETURN", "LOG", "MARK"]

/-- Whether a rule may be added to a table: its target, if it names one, is a standard target or a chain there. -/
def canLoad (tables : Tables) (table : String) (rule : Rule) : Bool :=
  match rule.target? with
  | none => true
  | some target => standardTargets.contains target || tables.hasChain ⟨table, target⟩

/-- Why a filter refuses a call. -/
inductive Refusal where
  | noSuchChain
  | chainExists
  | chainNotEmpty
  | chainReferenced
  | noSuchRule
  | unknownTarget
  /-- The call was chosen to fail. -/
  | injected (kind : Kind)
deriving DecidableEq, Repr

/-- The refusal as the error of a program that ended with status 1. -/
def Refusal.toError : Refusal → Error
  | .noSuchChain => .exited "iptables" "exit status: 1" "No chain/target/match by that name."
  | .chainExists => .exited "iptables" "exit status: 1" "Chain already exists."
  | .chainNotEmpty => .exited "iptables" "exit status: 1" "Directory not empty."
  | .chainReferenced => .exited "iptables" "exit status: 1" "Too many links."
  | .noSuchRule =>
    .exited "iptables" "exit status: 1" "Bad rule (does a matching rule exist in that chain?)."
  | .unknownTarget => .exited "iptables-restore" "exit status: 1" "Couldn't load target"
  | .injected kind => .exited kind.name "exit status: 1" "injected failure"

/-- The rules with others put before the one at a position, which counts from 1; beyond the end they are appended. -/
def insertAt (position : Nat) (added rules : List Rule) : List Rule :=
  rules.take (position - 1) ++ added ++ rules.drop (position - 1)

/-- The lines that describe a chain: the chain itself, then each of its rules. -/
def listing (name : String) (rules : List Rule) : List String :=
  let header := if builtinChains.contains name then s!"-P {name} ACCEPT" else s!"-N {name}"
  header :: rules.map fun rule => s!"-A {name} {rule.render}"

/-- Carries out a call: the lines it lists and the tables afterwards, or why it is refused. -/
def apply (tables : Tables) (call : Call) : Except Refusal (List String × Tables) :=
  let id := call.chain
  match call.operation with
  | .list =>
    match tables.rules? id with
    | none => .error .noSuchChain
    | some rules => .ok (listing id.name rules, tables)
  | .newChain =>
    if tables.hasChain id then .error .chainExists else .ok ([], tables.addChain id)
  | .clearChain =>
    if tables.hasChain id then .ok ([], tables.modify id fun _ => []) else .error .noSuchChain
  | .deleteChain =>
    match tables.rules? id with
    | none => .error .noSuchChain
    | some rules =>
      if ¬ rules.isEmpty then .error .chainNotEmpty
      else if tables.isReferenced id then .error .chainReferenced
      else .ok ([], tables.removeChain id)
  | .delete rule =>
    match tables.rules? id with
    | none => .error .noSuchChain
    | some rules =>
      if rules.contains rule then .ok ([], tables.modify id fun rules => rules.erase rule)
      else .error .noSuchRule
  | .bulkInsert position added =>
    if ¬ added.all (tables.canLoad id.table) then .error .unknownTarget
    else if tables.hasChain id then .ok ([], tables.modify id (insertAt position added))
    else .error .noSuchChain
  | .bulkAppend added =>
    if ¬ added.all (tables.canLoad id.table) then .error .unknownTarget
    else if tables.hasChain id then .ok ([], tables.modify id (· ++ added))
    else .error .noSuchChain

end Tables

end OverlayHost.Filter
