import OverlayHost.Filter.Program
import OverlayHost.Generation

/-!
# Putting a rule set into force

A chain is never edited in place. A fresh generation of it is built and filled, then jumped to from the top of the
parent chain, and only after that the older generations are taken out of the parent and removed. So traffic meets
either the old rules or all of the new ones. A generation that could not be filled or linked is thrown away.
-/

set_option autoImplicit false

namespace OverlayHost

/-- Why a rule set could not be put into force, by the step that failed. -/
inductive EnforceError where
  | list (parent : String) (cause : Filter.Error)
  | createChain (cause : Filter.Error)
  | append (cause : Filter.Error)
  | insert (cause : Filter.Error)
  | cleanup (cause : Filter.Error)
deriving DecidableEq, Repr

/-- The error in one line. -/
def EnforceError.message : EnforceError → String
  | .list parent cause => s!"listing {parent} rules: {cause.message}"
  | .createChain cause => s!"creating chain: {cause.message}"
  | .append cause => s!"bulk appending: {cause.message}"
  | .insert cause => s!"inserting chain: {cause.message}"
  | .cleanup cause => s!"cleanup old chain: {cause.message}"

namespace Enforcer

open OverlayHost.Filter (Program ChainId)

/-- Clears and deletes a chain that was never linked, whatever comes of it, and answers an error. -/
def discard (id : ChainId) (error : EnforceError) : Program (Except EnforceError Unit) :=
  .call ⟨id, .clearChain⟩ fun _ => .call ⟨id, .deleteChain⟩ fun _ => .done (.error error)

/-- Takes generations out of the parent chain and removes them, one after the other, up to the first failure. -/
def removeAll (chain : Chain) : List Nat → Program (Except EnforceError Unit)
  | [] => .done (.ok ())
  | old :: rest =>
    let name := Generation.name chain.stem old
    .call ⟨⟨chain.table, chain.parent⟩, .delete (Rule.jumpTo name)⟩ fun
      | .error cause => .done (.error (.cleanup cause))
      | .ok _ => .call ⟨⟨chain.table, name⟩, .clearChain⟩ fun
        | .error cause => .done (.error (.cleanup cause))
        | .ok _ => .call ⟨⟨chain.table, name⟩, .deleteChain⟩ fun
          | .error cause => .done (.error (.cleanup cause))
          | .ok _ => removeAll chain rest

/-- Builds a fresh generation, links it at the top of the parent chain, and removes the generations found before. -/
def replace (set : RuleSet) (found : List Nat) (now : Nat) : Program (Except EnforceError Unit) :=
  let chain := set.chain
  let name := Generation.name chain.stem (Generation.next found now)
  let fresh : ChainId := ⟨chain.table, name⟩
  .call ⟨fresh, .newChain⟩ fun
    | .error cause => .done (.error (.createChain cause))
    | .ok _ => .call ⟨fresh, .bulkAppend set.rules⟩ fun
      | .error cause => discard fresh (.append cause)
      | .ok _ => .call ⟨⟨chain.table, chain.parent⟩, .bulkInsert 1 [Rule.jumpTo name]⟩ fun
        | .error cause => discard fresh (.insert cause)
        | .ok _ => removeAll chain found

/-- Puts a rule set into force in place of the generations that the parent chain names. -/
def enforce (set : RuleSet) : Program (Except EnforceError Unit) :=
  .call ⟨⟨set.chain.table, set.chain.parent⟩, .list⟩ fun
    | .error cause => .done (.error (.list set.chain.parent cause))
    | .ok lines => .clock fun now => replace set (Generation.inListing set.chain.stem lines) now

end Enforcer

end OverlayHost
