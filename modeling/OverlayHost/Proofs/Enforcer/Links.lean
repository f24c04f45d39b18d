import OverlayHost.Enforcer
import OverlayHost.Proofs.Filter.Lookup
import OverlayHost.Proofs.Generation.Listing

/-!
# The generations that a parent chain links

The chains that putting a rule set into force works on, and what of them can be seen from the parent chain: the
generations that it jumps to, the topmost first, each with the rules that it holds. The program that puts a rule set
into force is cut into its stages, so that each can be spoken about by itself.
-/

set_option autoImplicit false

namespace OverlayHost

open OverlayHost.Filter (Tables ChainId Host Program)

/-- The parent of a chain's generations. -/
def Chain.parentId (chain : Chain) : ChainId := ⟨chain.table, chain.parent⟩

/-- A generation of a chain. -/
def Chain.generationId (chain : Chain) (generation : Nat) : ChainId :=
  ⟨chain.table, Generation.name chain.stem generation⟩

/-- The rule that links a generation of a chain. -/
def Chain.link (chain : Chain) (generation : Nat) : Rule :=
  Rule.jumpTo (Generation.name chain.stem generation)

namespace Enforcer

/-- The rules of a chain, none if there is no such chain. -/
def rulesOf (tables : Tables) (id : ChainId) : List Rule := (tables.rules? id).getD []

/-- The generations of a chain that are found in the listing of its parent. -/
def foundIn (tables : Tables) (chain : Chain) : List Nat :=
  Generation.inListing chain.stem (Tables.listing chain.parent (rulesOf tables chain.parentId))

/-- The generation that is built next for a chain when the clock shows a time. -/
def nextIn (tables : Tables) (chain : Chain) (now : Nat) : Nat := Generation.next (foundIn tables chain) now

/-- The generations that a chain's parent jumps to, in the order of its rules. -/
def links (tables : Tables) (chain : Chain) : List Nat :=
  Generation.linked chain.stem (rulesOf tables chain.parentId)

/-- The generations that a chain's parent jumps to, each with the rules that it holds, if it exists. -/
def view (tables : Tables) (chain : Chain) : List (Nat × Option (List Rule)) :=
  (links tables chain).map fun generation => (generation, tables.rules? (chain.generationId generation))

theorem rulesOf_of_rules? {tables : Tables} {id : ChainId} {rules : List Rule}
    (h : tables.rules? id = some rules) : rulesOf tables id = rules := by
  rw [rulesOf, h, Option.getD_some]

/-! ## Stages -/

/-- Links a generation that has been filled, and removes those found before. -/
def linkFilled (set : RuleSet) (found : List Nat) (generation : Nat) : Program (Except EnforceError Unit) :=
  .call ⟨set.chain.parentId, .bulkInsert 1 [set.chain.link generation]⟩ fun
    | .error cause => discard (set.chain.generationId generation) (.insert cause)
    | .ok _ => removeAll set.chain found

/-- Fills a generation that has been added, links it, and removes those found before. -/
def fillAdded (set : RuleSet) (found : List Nat) (generation : Nat) : Program (Except EnforceError Unit) :=
  .call ⟨set.chain.generationId generation, .bulkAppend set.rules⟩ fun
    | .error cause => discard (set.chain.generationId generation) (.append cause)
    | .ok _ => linkFilled set found generation

theorem replace_eq (set : RuleSet) (found : List Nat) (now : Nat) :
    replace set found now = .call ⟨set.chain.generationId (Generation.next found now), .newChain⟩ fun
      | .error cause => .done (.error (.createChain cause))
      | .ok _ => fillAdded set found (Generation.next found now) := rfl

theorem removeAll_cons (chain : Chain) (old : Nat) (rest : List Nat) :
    removeAll chain (old :: rest) = .call ⟨chain.parentId, .delete (chain.link old)⟩ fun
      | .error cause => .done (.error (.cleanup cause))
      | .ok _ => .call ⟨chain.generationId old, .clearChain⟩ fun
        | .error cause => .done (.error (.cleanup cause))
        | .ok _ => .call ⟨chain.generationId old, .deleteChain⟩ fun
          | .error cause => .done (.error (.cleanup cause))
          | .ok _ => removeAll chain rest := rfl

theorem enforce_eq (set : RuleSet) :
    enforce set = .call ⟨set.chain.parentId, .list⟩ fun
      | .error cause => .done (.error (.list set.chain.parent cause))
      | .ok lines => .clock fun now => replace set (Generation.inListing set.chain.stem lines) now := rfl

/-- If the parent can be listed, the clock is read and what is found is replaced. -/
theorem run_enforce {σ : Type} (host : Host σ) (set : RuleSet) (state : σ) {lines : List String}
    (hlines : (host.perform state ⟨set.chain.parentId, .list⟩).1 = .ok lines) :
    (enforce set).run host state =
      (replace set (Generation.inListing set.chain.stem lines)
        (host.now (host.perform state ⟨set.chain.parentId, .list⟩).2).1).run host
          (host.now (host.perform state ⟨set.chain.parentId, .list⟩).2).2 := by
  rw [enforce_eq]
  simp only [Program.run, hlines]

end Enforcer

end OverlayHost
