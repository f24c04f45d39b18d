import OverlayHost.Proofs.Cycle.Agreement
import OverlayHost.Proofs.Enforcer.Accounts

/-!
# Generations that are left behind

Rule sets for one chain, put into force one after the other on a filter that holds no generation of the chain, with any
calls made to fail. When one of them has been put into force, the parent links its generation and none other, and any
other generation that still exists is one that a call was to empty or to delete and was made to fail.

`generations_left_behind` is a run that leaves such generations behind for good. One could not be filled, and throwing
it away failed as well. The other was taken out of the parent, and then could not be emptied. The enforcer looks for
older generations in the parent only, so it finds neither of them again.
-/

set_option autoImplicit false

namespace OverlayHost.Cycle

open OverlayHost.Filter (Tables Memory)
open OverlayHost.Enforcer (Unbuilt Accounted Settled LeftOver TenDigits)

variable {chain : Chain} {set : RuleSet} {scene : Scene} {start : Tables}

/-- Whether a rule set is for a chain and jumps to no generation of it. -/
structure ServesOnly (chain : Chain) (set : RuleSet) : Prop where
  own : set.chain = chain
  inner : ∀ rule ∈ set.rules, Generation.jumped? chain.stem rule = none

namespace Scene

/-- Puts rule sets into force one after the other. -/
def enforceAll (scene : Scene) (sets : List RuleSet) : Scene :=
  sets.foldl (fun scene set => (scene.enforce set).2) scene

theorem settled_enforce (hunbuilt : Unbuilt chain start) (hset : ServesOnly chain set)
    (h : TenDigits scene.filter.history → ∃ live, Accounted chain start live [] scene.filter.journal) :
    TenDigits (scene.enforce set).2.filter.history → TenDigits scene.filter.history ∧
      Settled set start scene.filter.memory.tables (scene.enforce set).1 (scene.enforce set).2.filter.journal := by
  obtain ⟨rfl, hinner⟩ := hset
  exact enforce_of_ensures (Enforcer.enforce_accounted hunbuilt hinner h)

theorem accounted_enforceAll (hunbuilt : Unbuilt chain start) {sets : List RuleSet}
    (hsets : ∀ set ∈ sets, ServesOnly chain set)
    (h : TenDigits scene.filter.history → ∃ live, Accounted chain start live [] scene.filter.journal) :
    TenDigits (scene.enforceAll sets).filter.history →
      ∃ live, Accounted chain start live [] (scene.enforceAll sets).filter.journal := by
  induction sets generalizing scene with
  | nil => exact h
  | cons set rest ih =>
    obtain ⟨hset, hrest⟩ := List.forall_mem_cons.mp hsets
    refine ih hrest fun hdigits => ?_
    have hlive := (settled_enforce hunbuilt hset h hdigits).2.1
    rw [hset.own] at hlive
    exact hlive

end Scene

/-- When a rule set has been put into force, the parent links a generation that was not there before and holds the
rules, and any other generation that exists is left over from a removal that was made to fail. -/
theorem leftOver_of_enforce_ok {memory : Memory} (hstem : Generation.BlankFree chain.stem)
    (hreachable : memory.Reachable) (habsent : ∀ id, chain.Owns id → memory.tables.rules? id = none)
    {sets : List RuleSet} (hsets : ∀ set ∈ sets, ServesOnly chain set) (hset : ServesOnly chain set)
    {failures : List (List Filter.Kind)} {readings : List Nat} {before last : Scene}
    (hbefore : Scene.enforceAll { filter := { memory }, failures, readings } sets = before)
    (henforce : before.enforce set = (.ok (), last)) (hdigits : TenDigits last.filter.history) :
    ∃ generation, before.filter.memory.tables.rules? (chain.generationId generation) = none ∧
      last.filter.memory.tables.rules? (chain.generationId generation) = some set.rules ∧
      last.filter.memory.tables.rules? chain.parentId =
        (memory.tables.rules? chain.parentId).map (chain.link generation :: ·) ∧
      ∀ id rules, chain.Owns id → last.filter.memory.tables.rules? id = some rules →
        id = chain.generationId generation ∨ LeftOver last.filter.history id := by
  have hunbuilt : Unbuilt chain memory.tables := ⟨hstem, hreachable.noDangling, habsent⟩
  have hkept : TenDigits before.filter.history →
      ∃ live, Accounted chain memory.tables live [] before.filter.journal := by
    rw [← hbefore]
    exact Scene.accounted_enforceAll hunbuilt hsets fun _ => ⟨[], hunbuilt.accounted⟩
  have hsettled := Scene.settled_enforce hunbuilt hset hkept
  obtain rfl := hset.own
  rw [henforce] at hsettled
  obtain ⟨-, -, hok⟩ := hsettled hdigits
  obtain ⟨generation, hnew, haccounted, hfull⟩ := hok rfl
  refine ⟨generation, hnew, hfull, haccounted.parent, ?_⟩
  intro id rules howns hrules
  refine (haccounted.each id howns rules hrules).imp_left ?_
  rintro ⟨other, hother, rfl⟩
  rw [List.append_nil] at hother
  rw [List.mem_singleton.mp hother]

/-! ## A run that leaves generations behind -/

/-- A new filter, on which the second rule set cannot be filled in or thrown away, and the third cannot be cleaned up
after. -/
def failingScene : Scene where
  filter := { memory := Memory.initial }
  failures := [[], [], [], [], [.bulkAppend, .deleteChain], [], [], [], [], [.clearChain]]
  readings := [1700000000, 1700000001, 1700000002, 1700000003]

/-- What three rule sets leave there. -/
def failedScene : Scene := failingScene.enforceAll [remotePlan false, remotePlan true, remotePlan true]

theorem servesOnly_remotePlan (logging : Bool) : ServesOnly ⟨"filter", "FORWARD", "p-"⟩ (remotePlan logging) := by
  cases logging with
  | false => exact ⟨rfl, by decide⟩
  | true => exact ⟨rfl, by decide⟩

theorem absent_initial : ∀ id, Chain.Owns ⟨"filter", "FORWARD", "p-"⟩ id → Tables.initial.rules? id = none := by
  rintro id ⟨htable, hname⟩
  rw [Tables.rules?_eq_none_iff]
  intro hmem
  have hnone : ∀ other ∈ Tables.initial.entries.map Prod.fst, (Generation.ofName? "p-" other.name).isSome = false := by
    decide
  rw [hnone id hmem] at hname
  cases hname

theorem servesOnly_failed :
    ∀ set ∈ [remotePlan false, remotePlan true, remotePlan true], ServesOnly ⟨"filter", "FORWARD", "p-"⟩ set := by
  intro set hset
  simp only [List.mem_cons, List.not_mem_nil, or_false] at hset
  rcases hset with rfl | rfl | rfl
  all_goals exact servesOnly_remotePlan _

theorem tenDigits_failed : TenDigits (failedScene.enforce (remotePlan true)).2.filter.history :=
  Enforcer.tenDigits_of_names (by decide)

/-- The fourth rule set is put into force, but the generations of the first two are still there. -/
theorem generations_left_behind :
    Generation.BlankFree "p-" ∧ Memory.initial.Reachable ∧
      (∀ id, Chain.Owns ⟨"filter", "FORWARD", "p-"⟩ id → Tables.initial.rules? id = none) ∧
      (∀ set ∈ [remotePlan false, remotePlan true, remotePlan true], ServesOnly ⟨"filter", "FORWARD", "p-"⟩ set) ∧
      ServesOnly ⟨"filter", "FORWARD", "p-"⟩ (remotePlan true) ∧
      TenDigits (failedScene.enforce (remotePlan true)).2.filter.history ∧
      (failedScene.enforce (remotePlan true)).1 = .ok () ∧
      Enforcer.links (failedScene.enforce (remotePlan true)).2.filter.memory.tables ⟨"filter", "FORWARD", "p-"⟩ =
        [1700000003] ∧
      (failedScene.enforce (remotePlan true)).2.filter.memory.tables.rules? ⟨"filter", "p-1700000000"⟩ ≠ none ∧
      (failedScene.enforce (remotePlan true)).2.filter.memory.tables.rules? ⟨"filter", "p-1700000001"⟩ ≠ none :=
  ⟨by decide, .initial, absent_initial, servesOnly_failed, servesOnly_remotePlan true, tenDigits_failed,
    by decide⟩

/-- Both of them are left over from removals that were made to fail. -/
theorem leftOver_after_failures :
    Generation.BlankFree "p-" ∧ Memory.initial.Reachable ∧
      (∀ id, Chain.Owns ⟨"filter", "FORWARD", "p-"⟩ id → Tables.initial.rules? id = none) ∧
      (failedScene.enforce (remotePlan true)).1 = .ok () ∧
      ∃ generation,
        failedScene.filter.memory.tables.rules? (Chain.generationId ⟨"filter", "FORWARD", "p-"⟩ generation) = none ∧
        (failedScene.enforce (remotePlan true)).2.filter.memory.tables.rules?
          (Chain.generationId ⟨"filter", "FORWARD", "p-"⟩ generation) = some (remotePlan true).rules ∧
        (failedScene.enforce (remotePlan true)).2.filter.memory.tables.rules? ⟨"filter", "FORWARD"⟩ =
          (Tables.initial.rules? ⟨"filter", "FORWARD"⟩).map (Chain.link ⟨"filter", "FORWARD", "p-"⟩ generation :: ·) ∧
        ∀ id rules, Chain.Owns ⟨"filter", "FORWARD", "p-"⟩ id →
          (failedScene.enforce (remotePlan true)).2.filter.memory.tables.rules? id = some rules →
          id = Chain.generationId ⟨"filter", "FORWARD", "p-"⟩ generation ∨
            LeftOver (failedScene.enforce (remotePlan true)).2.filter.history id := by
  have hstem : Generation.BlankFree "p-" := by decide
  have hok : (failedScene.enforce (remotePlan true)).1 = .ok () := by decide
  refine ⟨hstem, .initial, absent_initial, hok, ?_⟩
  exact leftOver_of_enforce_ok hstem .initial absent_initial servesOnly_failed (servesOnly_remotePlan true) rfl
    (Prod.ext hok rfl) tenDigits_failed

end OverlayHost.Cycle
