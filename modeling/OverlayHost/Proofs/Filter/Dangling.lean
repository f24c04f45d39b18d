import OverlayHost.Proofs.Filter.Execution
import OverlayHost.Proofs.Filter.Lookup

/-!
# No dangling jumps

In tables without dangling jumps every rule that jumps somewhere jumps to a standard target or to a chain of its own
table. Calls keep to that: rules are checked on their way in, and a chain that is jumped to cannot be deleted. So no
filter in memory ever has dangling jumps, whatever is called on it and however its calls are made to fail.
-/

set_option autoImplicit false

namespace OverlayHost.Filter

namespace Tables

variable {tables after : Tables} {id : ChainId} {rules : List Rule} {rule : Rule} {lines : List String} {call : Call}

/-- Whether each rule jumps, if at all, to a standard target or to a chain of its table. -/
def NoDangling (tables : Tables) : Prop :=
  ∀ id rules, tables.rules? id = some rules → ∀ rule ∈ rules, tables.canLoad id.table rule = true

theorem noDangling_initial : NoDangling initial := by
  intro id rules hrules rule hrule
  have hmem := mem_entries_of_rules? hrules
  obtain ⟨name, -, hentry⟩ := List.mem_map.mp hmem
  rw [← (Prod.mk.inj hentry).2] at hrule
  cases hrule

/-- A rule that can be loaded can still be loaded when there are more chains. -/
theorem canLoad_mono {table : String}
    (hchains : ∀ id, tables.hasChain id = true → after.hasChain id = true)
    (h : tables.canLoad table rule = true) : after.canLoad table rule = true := by
  rw [canLoad_iff] at h ⊢
  intro target htarget
  rcases h target htarget with hstandard | hchain
  · exact .inl hstandard
  · exact .inr (hchains _ hchain)

/-- Tables keep to their targets if no chain is lost and every rule could be loaded before. -/
theorem noDangling_of_canLoad (tables : Tables)
    (hchains : ∀ id, tables.hasChain id = true → after.hasChain id = true)
    (hrules : ∀ id rules, after.rules? id = some rules → ∀ rule ∈ rules, tables.canLoad id.table rule = true) :
    NoDangling after := by
  intro id rules hfound rule hrule
  exact canLoad_mono hchains (hrules id rules hfound rule hrule)

theorem NoDangling.addChain (h : NoDangling tables) (hnew : tables.rules? id = none) :
    NoDangling (tables.addChain id) := by
  refine noDangling_of_canLoad tables ?_ ?_
  · intro other hother
    rw [hasChain_iff] at hother ⊢
    obtain ⟨rules, hrules⟩ := hother
    rw [rules?_addChain hnew]
    split
    · exact ⟨[], rfl⟩
    · exact ⟨rules, hrules⟩
  · intro other rules hrules rule hrule
    rw [rules?_addChain hnew] at hrules
    split at hrules
    · cases hrules
      cases hrule
    · exact h other rules hrules rule hrule

/-- Changing a chain's rules keeps to the targets if every rule that is there afterwards could be loaded. -/
theorem NoDangling.modify (h : NoDangling tables) {change : List Rule → List Rule}
    (hchange : ∀ rules, tables.rules? id = some rules →
      ∀ rule ∈ change rules, rule ∈ rules ∨ tables.canLoad id.table rule = true) :
    NoDangling (tables.modify id change) := by
  refine noDangling_of_canLoad tables ?_ ?_
  · intro other hother
    rw [hasChain_iff] at hother ⊢
    obtain ⟨rules, hrules⟩ := hother
    rw [rules?_modify]
    split
    next heq => exact ⟨change rules, by rw [← heq, hrules]; rfl⟩
    next => exact ⟨rules, hrules⟩
  · intro other rules hrules rule hrule
    rw [rules?_modify] at hrules
    split at hrules
    next heq =>
      obtain ⟨before, hbefore, rfl⟩ := Option.map_eq_some_iff.mp hrules
      rw [heq]
      rcases hchange before hbefore rule hrule with hkept | hload
      · exact h id before hbefore rule hkept
      · exact hload
    next => exact h other rules hrules rule hrule

theorem NoDangling.removeChain (h : NoDangling tables) (hfree : tables.isReferenced id = false) :
    NoDangling (tables.removeChain id) := by
  intro other rules hrules rule hrule
  rw [rules?_removeChain] at hrules
  split at hrules
  · cases hrules
  next hother =>
    have hload := h other rules hrules rule hrule
    rw [canLoad_iff] at hload ⊢
    intro target htarget
    rcases hload target htarget with hstandard | hchain
    · exact .inl hstandard
    · right
      rw [hasChain_iff] at hchain ⊢
      obtain ⟨found, hfound⟩ := hchain
      refine ⟨found, ?_⟩
      rw [rules?_removeChain, if_neg, hfound]
      -- the rule at hand would be a reference to the chain
      intro heq
      have hreferenced : tables.isReferenced id = true := by
        rw [isReferenced_iff]
        refine ⟨other.name, rules, rule, ?_, hrule, ?_⟩
        · rw [← heq]
          exact hrules
        · rw [← heq]
          exact htarget
      rw [hfree] at hreferenced
      cases hreferenced

/-- A call that is carried out leaves no dangling jumps. -/
theorem NoDangling.apply (h : NoDangling tables) (happly : tables.apply call = .ok (lines, after)) :
    NoDangling after := by
  obtain ⟨id, operation⟩ := call
  cases operation with
  | list =>
    rw [apply_list_eq_ok] at happly
    obtain ⟨rules, -, -, rfl⟩ := happly
    exact h
  | newChain =>
    rw [apply_newChain_eq_ok] at happly
    obtain ⟨hnew, -, rfl⟩ := happly
    exact h.addChain hnew
  | clearChain =>
    rw [apply_clearChain_eq_ok] at happly
    obtain ⟨-, -, rfl⟩ := happly
    refine h.modify fun rules _ rule hrule => ?_
    cases hrule
  | deleteChain =>
    rw [apply_deleteChain_eq_ok] at happly
    obtain ⟨-, hfree, -, rfl⟩ := happly
    exact h.removeChain hfree
  | delete rule =>
    rw [apply_delete_eq_ok] at happly
    obtain ⟨-, -, rfl⟩ := happly
    exact h.modify fun rules _ rule hrule => .inl (List.mem_of_mem_erase hrule)
  | bulkInsert position added =>
    rw [apply_bulkInsert_eq_ok] at happly
    obtain ⟨hload, -, -, rfl⟩ := happly
    refine h.modify fun rules _ rule hrule => ?_
    simp only [insertAt, List.mem_append] at hrule
    rcases hrule with (hbefore | hadded) | hafter
    · exact .inl (List.mem_of_mem_take hbefore)
    · exact .inr (hload rule hadded)
    · exact .inl (List.mem_of_mem_drop hafter)
  | bulkAppend added =>
    rw [apply_bulkAppend_eq_ok] at happly
    obtain ⟨hload, -, -, rfl⟩ := happly
    refine h.modify fun rules _ rule hrule => ?_
    rcases List.mem_append.mp hrule with hbefore | hadded
    · exact .inl hbefore
    · exact .inr (hload rule hadded)

/-- Nothing jumps to a chain that does not exist, unless its name is that of a standard target. -/
theorem NoDangling.isReferenced_eq_false (h : NoDangling tables) (habsent : tables.rules? id = none)
    (hname : id.name ∉ standardTargets) : tables.isReferenced id = false := by
  rw [Bool.eq_false_iff]
  intro hreferenced
  rw [isReferenced_iff] at hreferenced
  obtain ⟨name, rules, rule, hrules, hrule, htarget⟩ := hreferenced
  have hload := h _ rules hrules rule hrule
  rw [canLoad_iff] at hload
  rcases hload id.name htarget with hstandard | hchain
  · exact hname hstandard
  · rw [hasChain, habsent] at hchain
    cases hchain

end Tables

/-! ## Filters in memory -/

namespace Memory

variable {memory : Memory}

/-- The filters that come of a new one by calls, where any of them can be chosen to fail. -/
inductive Reachable : Memory → Prop
  | initial : Reachable Memory.initial
  | failNext {memory : Memory} (h : Reachable memory) (kind : Kind) : Reachable (memory.failNext kind)
  | perform {memory : Memory} (h : Reachable memory) (call : Call) : Reachable (memory.perform call).2

/-- A program only ever calls. -/
theorem Reachable.run {α : Type} (h : memory.Reachable) (program : Program α) (now : Nat) :
    (program.run (Memory.host now) memory).2.Reachable := by
  induction program generalizing memory with
  | done result => exact h
  | call request next ih => exact ih _ (h.perform request)
  | clock next ih => exact ih now h

theorem Reachable.noDangling (h : memory.Reachable) : memory.tables.NoDangling := by
  induction h with
  | initial => exact Tables.noDangling_initial
  | failNext _ kind ih => exact ih
  | @perform memory _ call ih =>
    rcases (memory.perform_answers call).cases with ⟨cause, -, hsame, -⟩ | ⟨lines, -, hdone⟩
    · rw [hsame]
      exact ih
    · exact ih.apply hdone

end Memory

end OverlayHost.Filter
