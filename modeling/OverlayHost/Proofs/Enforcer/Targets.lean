import OverlayHost.Enforcer
import OverlayHost.Proofs.Filter.Dangling

/-!
# Jumps lead somewhere

A new filter in memory, on which anything is called, in any order, and rule sets are put into force in between, with
any calls made to fail. A program that puts a rule set into force does nothing but call, so whatever it is answered the
filter is one that calls alone can lead to, and none of those has a dangling jump.
-/

set_option autoImplicit false

namespace OverlayHost.Enforcer

open OverlayHost.Filter (Tables ChainId Call Kind Memory Host Program)

/-- A filter in memory and, for each coming call, the operations that are chosen to fail just before it. -/
structure Faulty where
  memory : Memory
  failures : List (List Kind)

/-- A filter whose calls are made to fail as chosen, with a clock that stands still. -/
def Faulty.host (now : Nat) : Host Faulty where
  perform faulty call :=
    let (reply, memory) := ((faulty.failures.headD []).foldl Memory.failNext faulty.memory).perform call
    (reply, ⟨memory, faulty.failures.tail⟩)
  now faulty := (now, faulty)

/-- What can be done to a filter in memory. -/
inductive Deed where
  | call (request : Call)
  | failNext (kind : Kind)
  /-- A rule set is put into force, with failures chosen call by call. -/
  | enforce (set : RuleSet) (failures : List (List Kind)) (now : Nat)

/-- Does something to a filter. -/
def Deed.act (memory : Memory) : Deed → Memory
  | .call request => (memory.perform request).2
  | .failNext kind => memory.failNext kind
  | .enforce set failures now => ((Enforcer.enforce set).run (Faulty.host now) ⟨memory, failures⟩).2.memory

/-- Does things one after the other to a new filter. -/
def afterDeeds (deeds : List Deed) : Memory := deeds.foldl Deed.act Memory.initial

variable {memory : Memory}

theorem reachable_failures (h : memory.Reachable) (kinds : List Kind) :
    (kinds.foldl Memory.failNext memory).Reachable := by
  induction kinds generalizing memory with
  | nil => exact h
  | cons kind rest ih => exact ih (h.failNext kind)

/-- A program only ever calls, also where calls are made to fail in between. -/
theorem reachable_run {α : Type} (program : Program α) (now : Nat) {faulty : Faulty}
    (h : faulty.memory.Reachable) : (program.run (Faulty.host now) faulty).2.memory.Reachable := by
  induction program generalizing faulty with
  | done result => exact h
  | call request next ih =>
    have hcalled : ((Faulty.host now).perform faulty request).2.memory.Reachable :=
      (reachable_failures h (faulty.failures.headD [])).perform request
    exact ih _ hcalled
  | clock next ih => exact ih now h

theorem reachable_act (h : memory.Reachable) (deed : Deed) : (deed.act memory).Reachable := by
  cases deed with
  | call request => exact h.perform request
  | failNext kind => exact h.failNext kind
  | enforce set failures now =>
    have hfaulty : (Faulty.mk memory failures).memory.Reachable := h
    exact reachable_run (Enforcer.enforce set) now hfaulty

theorem reachable_afterDeeds (deeds : List Deed) : (afterDeeds deeds).Reachable := by
  suffices hfold : ∀ memory : Memory, memory.Reachable → (deeds.foldl Deed.act memory).Reachable by
    exact hfold Memory.initial .initial
  induction deeds with
  | nil => exact fun _ h => h
  | cons deed rest ih => exact fun memory h => ih (deed.act memory) (reachable_act h deed)

/-- Whatever has been done to a filter, a rule that names a target jumps to a standard target or to a chain of its own
table. -/
theorem target_exists_afterDeeds (deeds : List Deed) {table name : String} {rules : List Rule} {rule : Rule}
    {target : String} (hrules : (afterDeeds deeds).tables.rules? ⟨table, name⟩ = some rules) (hrule : rule ∈ rules)
    (htarget : rule.target? = some target) :
    target ∈ Tables.standardTargets ∨ ∃ found, (afterDeeds deeds).tables.rules? ⟨table, target⟩ = some found := by
  have hload := (reachable_afterDeeds deeds).noDangling _ rules hrules rule hrule
  rw [Tables.canLoad_iff] at hload
  rw [← Tables.hasChain_iff]
  exact hload target htarget

/-- A chain that jumps to itself, two rule sets that jump to it, one of which cannot be filled in or thrown away, and
attempts to delete the chain before and after. -/
def selfJumpDeeds : List Deed :=
  let loop : ChainId := ⟨"filter", "loop"⟩
  [.call ⟨loop, .newChain⟩, .call ⟨loop, .bulkAppend [Rule.jumpTo "loop"]⟩, .call ⟨loop, .clearChain⟩,
    .call ⟨loop, .bulkAppend [⟨["-s", "10.0.0.0/8", "--goto", "loop"]⟩]⟩,
    .enforce ⟨⟨"filter", "FORWARD", "p-"⟩, [⟨["-g", "loop"]⟩]⟩ [] 1700000000,
    .failNext .deleteChain,
    .enforce ⟨⟨"filter", "FORWARD", "p-"⟩, [Rule.jumpTo "nowhere"]⟩ [[], [], [], [.clearChain]] 1700000001,
    .call ⟨loop, .clearChain⟩, .call ⟨loop, .deleteChain⟩]

/-- The chain that is jumped to is there still. -/
theorem target_exists_after_self_jump :
    (afterDeeds selfJumpDeeds).tables.rules? ⟨"filter", "p-1700000000"⟩ = some [⟨["-g", "loop"]⟩] ∧
      Rule.target? ⟨["-g", "loop"]⟩ = some "loop" ∧
      ("loop" ∈ Tables.standardTargets ∨
        ∃ found, (afterDeeds selfJumpDeeds).tables.rules? ⟨"filter", "loop"⟩ = some found) := by
  have hrules : (afterDeeds selfJumpDeeds).tables.rules? ⟨"filter", "p-1700000000"⟩ = some [⟨["-g", "loop"]⟩] := by
    decide
  have htarget : Rule.target? ⟨["-g", "loop"]⟩ = some "loop" := by decide
  exact ⟨hrules, htarget, target_exists_afterDeeds selfJumpDeeds hrules (List.mem_singleton_self _) htarget⟩

end OverlayHost.Enforcer
