import OverlayHost.Proofs.Enforcer.Links
import OverlayHost.Proofs.Filter.Dangling
import OverlayHost.Proofs.Filter.Execution

/-!
# A rule set that could not be linked

A rule set that fails to be put into force before its generation is linked leaves the tables as they were: either
nothing was added, or the fresh generation is thrown away again. Only a failure of that very removal can leave the
fresh generation behind, and then nothing jumps to it.
-/

set_option autoImplicit false

namespace OverlayHost.Enforcer

open OverlayHost.Filter (Tables ChainId Kind Memory Program)

variable {fails : Kind → Prop} {before tables : Tables} {fresh : ChainId}

/-- Whether tables hold nothing but what they held before and, perhaps, one chain to which no other jumps. -/
structure AddsAtMost (before : Tables) (fresh : ChainId) (after : Tables) : Prop where
  new : before.rules? fresh = none
  same : ∀ id, id ≠ fresh → after.rules? id = before.rules? id
  unlinked : ∀ id rules, id ≠ fresh → id.table = fresh.table → after.rules? id = some rules →
    ∀ rule ∈ rules, rule.target? ≠ some fresh.name

/-- What is left of the tables when putting a rule set into force has ended, if its generation was not linked. -/
def Unlinked (fails : Kind → Prop) (before : Tables) (fresh : ChainId) :
    Except EnforceError Unit → Tables → Prop
  | .error (.list _ _), after | .error (.createChain _), after => after = before
  | .error (.append _), after | .error (.insert _), after =>
    AddsAtMost before fresh after ∧ (¬ fails .clearChain → ¬ fails .deleteChain → after = before)
  | .error (.cleanup _), _ | .ok (), _ => True

theorem addsAtMost_of_removeChain (hnew : before.rules? fresh = none) (hfree : before.isReferenced fresh = false)
    (h : tables.removeChain fresh = before) : AddsAtMost before fresh tables := by
  have hsame (id : ChainId) (hid : id ≠ fresh) : tables.rules? id = before.rules? id := by
    rw [← h, Tables.rules?_removeChain, if_neg hid]
  refine ⟨hnew, hsame, ?_⟩
  intro id rules hid htable hrules rule hrule htarget
  have hreferenced : before.isReferenced fresh = true := by
    rw [Tables.isReferenced_iff]
    refine ⟨id.name, rules, rule, ?_, hrule, htarget⟩
    rw [← htable, ← hsame id hid]
    exact hrules
  rw [hfree] at hreferenced
  cases hreferenced

/-- Throwing a chain away that nothing jumps to leaves at most that chain, and nothing of it if neither of the two
calls can be made to fail. -/
theorem discard_ensures (hnew : before.rules? fresh = none) (hfree : before.isReferenced fresh = false)
    (h : tables.removeChain fresh = before) (hexists : tables.hasChain fresh = true) (error : EnforceError) :
    (discard fresh error).Ensures (Tables.Answers fails) (fun _ => True)
      (fun result after => result = .error error ∧ after.removeChain fresh = before ∧
        (¬ fails .clearChain → ¬ fails .deleteChain → after = before)) tables := by
  have hclear : tables.apply ⟨fresh, .clearChain⟩ = .ok ([], tables.modify fresh fun _ => []) :=
    Tables.apply_clearChain_eq_ok.mpr ⟨Tables.hasChain_iff.mp hexists, rfl, rfl⟩
  intro reply cleared hcleared
  refine ⟨trivial, ?_⟩
  -- clearing changes at most the fresh chain, and empties it unless it was made to fail
  have hkept : cleared.removeChain fresh = before := by
    rcases hcleared.cases with ⟨-, -, rfl, -⟩ | ⟨lines, -, hdone⟩
    · exact h
    · rw [hclear] at hdone
      cases hdone
      rw [Tables.removeChain_modify, h]
  have hempty (hfails : ¬ fails .clearChain) :
      cleared.rules? fresh = some [] ∧ cleared.isReferenced fresh = false := by
    obtain ⟨-, rfl⟩ := hcleared.eq_of_apply hfails hclear
    obtain ⟨rules, hrules⟩ := Tables.hasChain_iff.mp hexists
    refine ⟨?_, Tables.isReferenced_clear hfree h⟩
    rw [Tables.rules?_modify, if_pos rfl, hrules, Option.map_some]
  intro reply after hafter
  refine ⟨trivial, rfl, ?_, ?_⟩
  · rcases hafter.cases with ⟨-, -, rfl, -⟩ | ⟨lines, -, hdone⟩
    · exact hkept
    · obtain ⟨-, -, -, rfl⟩ := Tables.apply_deleteChain_eq_ok.mp hdone
      rw [hkept]
      exact Tables.removeChain_of_none hnew
  · intro hfailsClear hfailsDelete
    obtain ⟨hrules, hunreferenced⟩ := hempty hfailsClear
    have hdelete : cleared.apply ⟨fresh, .deleteChain⟩ = .ok ([], cleared.removeChain fresh) :=
      Tables.apply_deleteChain_eq_ok.mpr ⟨hrules, hunreferenced, rfl, rfl⟩
    obtain ⟨-, rfl⟩ := hafter.eq_of_apply hfailsDelete hdelete
    exact hkept

/-- Removing older generations ends well or with an error of the cleanup. -/
theorem removeAll_ensures_cleanup (chain : Chain) (found : List Nat) (tables : Tables) :
    (removeAll chain found).Ensures (Tables.Answers fails) (fun _ => True)
      (fun result after => Unlinked fails before fresh result after) tables := by
  induction found generalizing tables with
  | nil => trivial
  | cons old rest ih =>
    intro reply unlinked _
    refine ⟨trivial, ?_⟩
    cases reply with
    | error cause => trivial
    | ok _ =>
      intro reply cleared _
      refine ⟨trivial, ?_⟩
      cases reply with
      | error cause => trivial
      | ok _ =>
        intro reply deleted _
        refine ⟨trivial, ?_⟩
        cases reply with
        | error cause => trivial
        | ok _ => exact ih deleted

/-- A generation that is thrown away since it could not be filled or linked leaves the tables as they were. -/
theorem discard_ensures_unlinked (hnew : before.rules? fresh = none) (hfree : before.isReferenced fresh = false)
    (h : tables.removeChain fresh = before) (hexists : tables.hasChain fresh = true) {error : EnforceError}
    (herror : ∀ after, AddsAtMost before fresh after ∧ (¬ fails .clearChain → ¬ fails .deleteChain → after = before) →
      Unlinked fails before fresh (.error error) after) :
    (discard fresh error).Ensures (Tables.Answers fails) (fun _ => True) (Unlinked fails before fresh) tables := by
  refine (discard_ensures hnew hfree h hexists error).mono (fun _ _ => trivial) ?_
  rintro result after ⟨rfl, hafter, hgone⟩
  exact herror after ⟨addsAtMost_of_removeChain hnew hfree hafter, hgone⟩

/-- From tables without dangling jumps, building and linking a fresh generation leaves the tables as they were, or
that generation unlinked, or gets past the link. -/
theorem replace_ensures_unlinked (fails : Kind → Prop) (h : before.NoDangling) (set : RuleSet) (found : List Nat)
    (now : Nat) :
    (replace set found now).Ensures (Tables.Answers fails) (fun _ => True)
      (Unlinked fails before (set.chain.generationId (Generation.next found now))) before := by
  rw [replace_eq]
  generalize Generation.next found now = generation
  intro reply created hcreated
  refine ⟨trivial, ?_⟩
  rcases hcreated.cases with ⟨cause, rfl, rfl, -⟩ | ⟨lines, rfl, hdone⟩
  · exact rfl
  obtain ⟨hnew, -, rfl⟩ := Tables.apply_newChain_eq_ok.mp hdone
  have hfree : before.isReferenced (set.chain.generationId generation) = false :=
    h.isReferenced_eq_false hnew (Generation.name_notMem_standardTargets _ _)
  -- from here on, everything but the fresh chain is as it was
  have hkept := Tables.removeChain_addChain hnew
  have hexists : (before.addChain (set.chain.generationId generation)).hasChain (set.chain.generationId generation) =
      true := by
    rw [Tables.hasChain, Tables.rules?_addChain hnew, if_pos rfl, Option.isSome_some]
  intro reply filled hfilled
  refine ⟨trivial, ?_⟩
  rcases hfilled.cases with ⟨cause, rfl, rfl, -⟩ | ⟨lines, rfl, hdone⟩
  · exact discard_ensures_unlinked hnew hfree hkept hexists fun _ hafter => hafter
  obtain ⟨-, -, -, rfl⟩ := Tables.apply_bulkAppend_eq_ok.mp hdone
  intro reply linked hlinked
  refine ⟨trivial, ?_⟩
  rcases hlinked.cases with ⟨cause, rfl, rfl, -⟩ | ⟨lines, rfl, -⟩
  · refine discard_ensures_unlinked hnew hfree ?_ ?_ fun _ hafter => hafter
    · rw [Tables.removeChain_modify, hkept]
    · rw [Tables.hasChain, Tables.rules?_modify, if_pos rfl, Option.isSome_map]
      exact hexists
  · exact removeAll_ensures_cleanup set.chain found linked

/-- Putting a rule set into force, on any filter in memory without dangling jumps, leaves its tables as they were, or
the fresh generation unlinked, or gets past the link. -/
theorem unlinked_of_noDangling {memory : Memory} (h : memory.tables.NoDangling) (set : RuleSet) (now : Nat) :
    Unlinked (· ∈ memory.pending) memory.tables (set.chain.generationId (nextIn memory.tables set.chain now))
      ((enforce set).run (Memory.host now) memory).1 ((enforce set).run (Memory.host now) memory).2.tables := by
  have hanswer := memory.perform_answers ⟨set.chain.parentId, .list⟩
  have hpending := memory.pending_perform_subset ⟨set.chain.parentId, .list⟩
  rw [enforce_eq, Program.run]
  simp only [Memory.host] at hanswer hpending ⊢
  generalize memory.perform ⟨set.chain.parentId, .list⟩ = listed at hanswer hpending ⊢
  obtain ⟨reply, after⟩ := listed
  rcases hanswer.cases with ⟨cause, rfl, hsame, -⟩ | ⟨lines, rfl, hdone⟩
  · exact hsame
  obtain ⟨rules, hrules, rfl, hsame⟩ := Tables.apply_list_eq_ok.mp hdone
  have hfound : foundIn memory.tables set.chain =
      Generation.inListing set.chain.stem (Tables.listing set.chain.parentId.name rules) := by
    rw [foundIn, rulesOf_of_rules? hrules]
    rfl
  rw [nextIn, hfound]
  have hreplace := replace_ensures_unlinked (· ∈ memory.pending) h set
    (Generation.inListing set.chain.stem (Tables.listing set.chain.parentId.name rules)) now
  rw [← hsame] at hreplace
  have hrun := hreplace.run_memory hpending now
  rw [hsame] at hrun
  exact hrun

/-- A rule set that fails to be put into force before the link, on a filter that only calls have led to, leaves it as
it was, or with the fresh generation unlinked if throwing that away was made to fail. -/
theorem unlinked_of_reachable {memory : Memory} (h : memory.Reachable) (set : RuleSet) (now : Nat) :
    Unlinked (· ∈ memory.pending) memory.tables (set.chain.generationId (nextIn memory.tables set.chain now))
      ((enforce set).run (Memory.host now) memory).1 ((enforce set).run (Memory.host now) memory).2.tables :=
  unlinked_of_noDangling h.noDangling set now

/-- A rule set that jumps to an unknown chain cannot be filled in, and with deleting made to fail its generation stays
behind, empty and unlinked. -/
theorem unlinked_of_unknown_target :
    (Memory.initial.failNext .deleteChain).Reachable ∧
      ((enforce ⟨⟨"filter", "FORWARD", "p-"⟩, [Rule.jumpTo "nowhere"]⟩).run (Memory.host 1700000000)
        (Memory.initial.failNext .deleteChain)).2.tables.entries =
          Tables.initial.entries ++ [(⟨"filter", "p-1700000000"⟩, [])] ∧
      Unlinked (· ∈ [Kind.deleteChain]) Tables.initial ⟨"filter", "p-1700000000"⟩
        (.error (.append Tables.Refusal.unknownTarget.toError))
        ((enforce ⟨⟨"filter", "FORWARD", "p-"⟩, [Rule.jumpTo "nowhere"]⟩).run (Memory.host 1700000000)
          (Memory.initial.failNext .deleteChain)).2.tables := by
  refine ⟨.failNext .initial _, by decide, ?_⟩
  have hfresh : (⟨"filter", "p-1700000000"⟩ : ChainId) =
      Chain.generationId ⟨"filter", "FORWARD", "p-"⟩
        (nextIn Tables.initial ⟨"filter", "FORWARD", "p-"⟩ 1700000000) := by
    decide
  have hresult : (.error (.append Tables.Refusal.unknownTarget.toError) : Except EnforceError Unit) =
      ((enforce ⟨⟨"filter", "FORWARD", "p-"⟩, [Rule.jumpTo "nowhere"]⟩).run (Memory.host 1700000000)
        (Memory.initial.failNext .deleteChain)).1 := by
    decide
  rw [hfresh, hresult]
  exact unlinked_of_reachable (.failNext .initial .deleteChain) ⟨⟨"filter", "FORWARD", "p-"⟩, [Rule.jumpTo "nowhere"]⟩
    1700000000

end OverlayHost.Enforcer
