import OverlayHost.Filter.Tables
import Mathlib.Data.List.Nodup

/-!
# What a call finds and leaves

The rules that a chain has after each change to the tables, and each call of a packet filter by what it found and what
it left: `apply_newChain_eq_ok` and its companions say exactly when a call succeeds.
-/

set_option autoImplicit false

namespace OverlayHost.Filter.Tables

variable {tables after : Tables} {id other : ChainId} {rules added : List Rule} {rule : Rule} {lines : List String}

/-! ## Changes and lookups -/

theorem eq_of_entries {first second : Tables} (h : first.entries = second.entries) : first = second := by
  cases first
  cases second
  simp only at h
  subst h
  rfl

theorem mem_entries_of_rules? (h : tables.rules? id = some rules) : (id, rules) ∈ tables.entries := by
  obtain ⟨entry, hfind, rfl⟩ := Option.map_eq_some_iff.mp h
  have hid : entry.1 = id := by simpa using List.find?_some hfind
  rw [← hid]
  exact List.mem_of_find?_eq_some hfind

/-- A chain is listed with the rules that a lookup finds, and no others. -/
theorem rules?_eq_some_iff : tables.rules? id = some rules ↔ (id, rules) ∈ tables.entries := by
  constructor
  · exact mem_entries_of_rules?
  · intro hmem
    have hsome : (tables.entries.find? fun entry => entry.1 = id).isSome := by
      rw [List.find?_isSome]
      exact ⟨(id, rules), hmem, by simp⟩
    obtain ⟨entry, hfind⟩ := Option.isSome_iff_exists.mp hsome
    have hid : entry.1 = id := by simpa using List.find?_some hfind
    have heq : entry = (id, rules) :=
      List.inj_on_of_nodup_map tables.nodup (List.mem_of_find?_eq_some hfind) hmem hid
    rw [rules?, hfind, heq]
    rfl

theorem rules?_eq_none_iff : tables.rules? id = none ↔ id ∉ tables.entries.map Prod.fst := by
  rw [rules?, Option.map_eq_none_iff, List.find?_eq_none, List.mem_map]
  constructor
  · rintro h ⟨entry, hmem, hid⟩
    exact h entry hmem (by simpa using hid)
  · intro h entry hmem hid
    exact h ⟨entry, hmem, by simpa using hid⟩

theorem hasChain_iff : tables.hasChain id = true ↔ ∃ rules, tables.rules? id = some rules := by
  rw [hasChain, Option.isSome_iff_exists]

theorem rules?_addChain (h : tables.rules? id = none) :
    (tables.addChain id).rules? other = if other = id then some [] else tables.rules? other := by
  have hnew := rules?_eq_none_iff.mp h
  unfold addChain
  rw [dif_neg hnew]
  simp only [rules?, List.find?_append]
  by_cases heq : other = id
  · subst heq
    have hnone : tables.entries.find? (fun entry => entry.1 = other) = none := Option.map_eq_none_iff.mp h
    simp [hnone]
  · have hne : ¬ id = other := fun hid => heq hid.symm
    simp [heq, hne]

theorem rules?_removeChain :
    (tables.removeChain id).rules? other = if other = id then none else tables.rules? other := by
  simp only [removeChain, rules?, List.find?_filter]
  by_cases heq : other = id
  · subst heq
    rw [if_pos rfl, Option.map_eq_none_iff, List.find?_eq_none]
    intro entry _
    simp
  · rw [if_neg heq]
    congr 2
    funext entry
    by_cases hentry : entry.1 = other
    · simp [hentry, heq]
    · simp [hentry]

theorem rules?_modify (change : List Rule → List Rule) :
    (tables.modify id change).rules? other =
      if other = id then (tables.rules? id).map change else tables.rules? other := by
  simp only [modify, rules?, List.find?_map, Option.map_map]
  have hsame : ((fun entry : ChainId × List Rule => decide (entry.1 = other)) ∘ fun entry =>
      if entry.1 = id then (entry.1, change entry.2) else entry) = fun entry => decide (entry.1 = other) := by
    funext entry
    by_cases hentry : entry.1 = id <;> simp [hentry]
  rw [hsame]
  cases hfind : tables.entries.find? (fun entry => entry.1 = other) with
  | none =>
    by_cases heq : other = id
    · subst heq
      simp [hfind]
    · simp [heq]
  | some entry =>
    have hid : entry.1 = other := by simpa using List.find?_some hfind
    by_cases heq : other = id
    · subst heq
      simp [hfind, hid]
    · simp [hid, heq]

theorem hasChain_modify (tables : Tables) (id other : ChainId) (change : List Rule → List Rule) :
    (tables.modify id change).hasChain other = tables.hasChain other := by
  rw [hasChain, hasChain, rules?_modify]
  split
  next heq => rw [heq, Option.isSome_map]
  next => rfl

/-- What is done to a chain is gone once the chain is removed. -/
theorem removeChain_modify (change : List Rule → List Rule) :
    (tables.modify id change).removeChain id = tables.removeChain id := by
  apply eq_of_entries
  simp only [removeChain, modify]
  induction tables.entries with
  | nil => rfl
  | cons entry rest ih =>
    by_cases heq : entry.1 = id
    · simpa [heq] using ih
    · simpa [heq] using ih

theorem removeChain_of_none (h : tables.rules? id = none) : tables.removeChain id = tables := by
  apply eq_of_entries
  have habsent := rules?_eq_none_iff.mp h
  refine List.filter_eq_self.mpr fun entry hmem => ?_
  have hne : entry.1 ≠ id := fun heq => habsent (heq ▸ List.mem_map_of_mem hmem)
  simpa using hne

theorem removeChain_addChain (h : tables.rules? id = none) : (tables.addChain id).removeChain id = tables := by
  apply eq_of_entries
  have hsame := congrArg Tables.entries (removeChain_of_none h)
  unfold addChain
  rw [dif_neg (rules?_eq_none_iff.mp h)]
  simp only [removeChain, List.filter_append] at hsame ⊢
  rw [hsame]
  simp

/-! ## Calls -/

theorem apply_list_eq_ok :
    tables.apply ⟨id, .list⟩ = .ok (lines, after) ↔
      ∃ rules, tables.rules? id = some rules ∧ lines = listing id.name rules ∧ after = tables := by
  simp only [apply]
  cases tables.rules? id with
  | none => simp
  | some rules => simp [eq_comm]

theorem apply_newChain_eq_ok :
    tables.apply ⟨id, .newChain⟩ = .ok (lines, after) ↔
      tables.rules? id = none ∧ lines = [] ∧ after = tables.addChain id := by
  cases hfound : tables.rules? id with
  | none => simp [apply, hasChain, hfound, eq_comm]
  | some rules => simp [apply, hasChain, hfound]

theorem apply_clearChain_eq_ok :
    tables.apply ⟨id, .clearChain⟩ = .ok (lines, after) ↔
      (∃ rules, tables.rules? id = some rules) ∧ lines = [] ∧ after = tables.modify id fun _ => [] := by
  cases hfound : tables.rules? id with
  | none => simp [apply, hasChain, hfound]
  | some rules => simp [apply, hasChain, hfound, eq_comm]

theorem apply_deleteChain_eq_ok :
    tables.apply ⟨id, .deleteChain⟩ = .ok (lines, after) ↔
      tables.rules? id = some [] ∧ tables.isReferenced id = false ∧ lines = [] ∧ after = tables.removeChain id := by
  simp only [apply]
  cases tables.rules? id with
  | none => simp
  | some rules =>
    cases rules with
    | cons rule rest => simp
    | nil =>
      cases tables.isReferenced id with
      | true => simp
      | false => simp [eq_comm]

theorem apply_delete_eq_ok :
    tables.apply ⟨id, .delete rule⟩ = .ok (lines, after) ↔
      (∃ rules, tables.rules? id = some rules ∧ rule ∈ rules) ∧ lines = [] ∧
        after = tables.modify id fun rules => rules.erase rule := by
  simp only [apply]
  cases tables.rules? id with
  | none => simp
  | some rules =>
    by_cases hmem : rule ∈ rules
    · simp [hmem, eq_comm]
    · simp [hmem]

theorem apply_bulkInsert_eq_ok {position : Nat} :
    tables.apply ⟨id, .bulkInsert position added⟩ = .ok (lines, after) ↔
      (∀ rule ∈ added, tables.canLoad id.table rule = true) ∧ (∃ rules, tables.rules? id = some rules) ∧
        lines = [] ∧ after = tables.modify id (insertAt position added) := by
  rw [← List.all_eq_true]
  cases hall : added.all (tables.canLoad id.table) with
  | false => simp [apply, hall]
  | true =>
    cases hfound : tables.rules? id with
    | none => simp [apply, hasChain, hall, hfound]
    | some rules => simp [apply, hasChain, hall, hfound, eq_comm]

theorem apply_bulkAppend_eq_ok :
    tables.apply ⟨id, .bulkAppend added⟩ = .ok (lines, after) ↔
      (∀ rule ∈ added, tables.canLoad id.table rule = true) ∧ (∃ rules, tables.rules? id = some rules) ∧
        lines = [] ∧ after = tables.modify id (· ++ added) := by
  rw [← List.all_eq_true]
  cases hall : added.all (tables.canLoad id.table) with
  | false => simp [apply, hall]
  | true =>
    cases hfound : tables.rules? id with
    | none => simp [apply, hasChain, hall, hfound]
    | some rules => simp [apply, hasChain, hall, hfound, eq_comm]

/-- Whether tables differ in one chain at most. -/
def SameBut (tables : Tables) (id : ChainId) (after : Tables) : Prop :=
  ∀ other, other ≠ id → after.rules? other = tables.rules? other

/-- A call changes no other chain than its own. -/
theorem sameBut_of_apply {call : Call} (h : tables.apply call = .ok (lines, after)) :
    tables.SameBut call.chain after := by
  obtain ⟨id, operation⟩ := call
  intro other hne
  cases operation with
  | list =>
    rw [apply_list_eq_ok] at h
    obtain ⟨rules, -, -, rfl⟩ := h
    rfl
  | newChain =>
    rw [apply_newChain_eq_ok] at h
    obtain ⟨hnew, -, rfl⟩ := h
    rw [rules?_addChain hnew, if_neg hne]
  | clearChain =>
    rw [apply_clearChain_eq_ok] at h
    obtain ⟨-, -, rfl⟩ := h
    rw [rules?_modify, if_neg hne]
  | deleteChain =>
    rw [apply_deleteChain_eq_ok] at h
    obtain ⟨-, -, -, rfl⟩ := h
    rw [rules?_removeChain, if_neg hne]
  | delete rule =>
    rw [apply_delete_eq_ok] at h
    obtain ⟨-, -, rfl⟩ := h
    rw [rules?_modify, if_neg hne]
  | bulkInsert position added =>
    rw [apply_bulkInsert_eq_ok] at h
    obtain ⟨-, -, -, rfl⟩ := h
    rw [rules?_modify, if_neg hne]
  | bulkAppend added =>
    rw [apply_bulkAppend_eq_ok] at h
    obtain ⟨-, -, -, rfl⟩ := h
    rw [rules?_modify, if_neg hne]

/-! ## Targets -/

theorem mem_chainsOf_iff {table name : String} :
    (name, rules) ∈ tables.chainsOf table ↔ tables.rules? ⟨table, name⟩ = some rules := by
  rw [rules?_eq_some_iff, chainsOf, List.mem_filterMap]
  constructor
  · rintro ⟨entry, hmem, hentry⟩
    split at hentry
    next htable =>
      obtain ⟨rfl, rfl⟩ := Prod.mk.inj (Option.some.inj hentry)
      rw [← htable]
      exact hmem
    next => cases hentry
  · intro hmem
    exact ⟨_, hmem, by simp⟩

/-- A chain is referenced if a rule of its table jumps to it. -/
theorem isReferenced_iff : tables.isReferenced id = true ↔ ∃ name rules rule,
    tables.rules? ⟨id.table, name⟩ = some rules ∧ rule ∈ rules ∧ rule.target? = some id.name := by
  simp only [isReferenced, List.any_eq_true, decide_eq_true_eq]
  constructor
  · rintro ⟨⟨name, rules⟩, hchain, rule, hrule, htarget⟩
    rw [mem_chainsOf_iff] at hchain
    exact ⟨name, rules, rule, hchain, hrule, htarget⟩
  · rintro ⟨name, rules, rule, hrules, hrule, htarget⟩
    rw [← mem_chainsOf_iff] at hrules
    exact ⟨(name, rules), hrules, rule, hrule, htarget⟩

/-- Nothing jumps to an emptied chain if nothing jumped to it without it. -/
theorem isReferenced_clear (hfree : after.isReferenced id = false) (h : tables.removeChain id = after) :
    (tables.modify id fun _ => []).isReferenced id = false := by
  rw [Bool.eq_false_iff]
  intro hreferenced
  rw [isReferenced_iff] at hreferenced
  obtain ⟨name, rules, rule, hrules, hrule, htarget⟩ := hreferenced
  rw [rules?_modify] at hrules
  split at hrules
  next =>
    obtain ⟨found, -, rfl⟩ := Option.map_eq_some_iff.mp hrules
    cases hrule
  next hother =>
    have hafter : after.isReferenced id = true := by
      rw [isReferenced_iff]
      refine ⟨name, rules, rule, ?_, hrule, htarget⟩
      rw [← h, rules?_removeChain, if_neg hother]
      exact hrules
    rw [hfree] at hafter
    cases hafter

/-- A rule can be loaded if its target, where it has one, is a standard target or a chain of the table. -/
theorem canLoad_iff {table : String} : tables.canLoad table rule = true ↔
    ∀ target, rule.target? = some target → target ∈ standardTargets ∨ tables.hasChain ⟨table, target⟩ = true := by
  rw [canLoad]
  cases rule.target? with
  | none => simp
  | some target => simp

end OverlayHost.Filter.Tables
