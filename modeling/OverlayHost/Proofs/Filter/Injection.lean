import OverlayHost.Proofs.Filter.Execution
import OverlayHost.Proofs.Filter.Lookup

/-!
# What calls change, and which of them fail as chosen

A filter in memory on which calls are made and, in between, further calls are chosen to fail. A call that fails leaves all
tables as they were and one that succeeds changes no other chain than its own: `atomic_and_local`. All that was chosen to
fail waits in one queue, but each operation has a count of its own there: its next calls fail, one for each choice, and
calls of other operations do not matter.
-/

set_option autoImplicit false

namespace OverlayHost.Filter.Memory

/-- What happens to a filter: the next call of an operation is chosen to fail, or a call is made. -/
inductive Step where
  | failNext (kind : Kind)
  | call (request : Call)
deriving DecidableEq

/-- The answer to a call of an operation that was chosen to fail. -/
def injected (kind : Kind) : Reply := .error (Tables.Refusal.injected kind).toError

namespace Step

/-- The filter after a step. -/
def act (memory : Memory) : Step → Memory
  | .failNext kind => memory.failNext kind
  | .call request => (memory.perform request).2

/-- Whether a step is a call of an operation. -/
def isCall (kind : Kind) : Step → Bool
  | .failNext _ => false
  | .call request => request.operation.kind = kind

/-- Whether a step is a call of an operation that fails as it was chosen to. -/
def isInjected (kind : Kind) (memory : Memory) : Step → Bool
  | .failNext _ => false
  | .call request => (memory.perform request).1 = injected kind

end Step

/-- The filter after a run of steps. -/
def after (memory : Memory) (steps : List Step) : Memory := steps.foldl Step.act memory

/-- How many calls of an operation fail as chosen in a run. -/
def injections (kind : Kind) (memory : Memory) : List Step → Nat
  | [] => 0
  | step :: rest => (if step.isInjected kind memory then 1 else 0) + injections kind (step.act memory) rest

variable {memory : Memory} {kind : Kind} {call : Call} {step : Step} {steps : List Step}

/-! ## One call -/

/-- A call fails as chosen if its operation is pending, and no other call does. -/
theorem perform_eq_injected_iff :
    (memory.perform call).1 = injected kind ↔ call.operation.kind = kind ∧ kind ∈ memory.pending := by
  constructor
  · exact (memory.perform_answers call).of_injected
  · rintro ⟨rfl, hpending⟩
    unfold perform
    dsimp only
    rw [if_pos (List.contains_iff_mem.mpr hpending)]
    rfl

theorem tables_of_error {cause : Error} (h : (memory.perform call).1 = .error cause) :
    (memory.perform call).2.tables = memory.tables := by
  rcases (memory.perform_answers call).cases with ⟨_, -, hsame, -⟩ | ⟨lines, hreply, -⟩
  · exact hsame
  · rw [hreply] at h
    cases h

theorem apply_of_ok {lines : List String} (h : (memory.perform call).1 = .ok lines) :
    memory.tables.apply call = .ok (lines, (memory.perform call).2.tables) := by
  rcases (memory.perform_answers call).cases with ⟨_, hreply, -, -⟩ | ⟨found, hreply, hdone⟩
  · rw [hreply] at h
    cases h
  · rw [hreply] at h
    cases h
    exact hdone

theorem count_pending_perform (memory : Memory) (call : Call) (kind : Kind) :
    (memory.perform call).2.pending.count kind =
      memory.pending.count kind - if call.operation.kind = kind then 1 else 0 := by
  rw [pending_perform, List.count_erase]
  simp only [beq_iff_eq]

/-! ## Runs -/

/-- What is pending of an operation grows by each choice and shrinks by each call that fails as chosen. -/
theorem count_pending_act (memory : Memory) (kind : Kind) (step : Step) :
    (step.act memory).pending.count kind + (if step.isInjected kind memory then 1 else 0) =
      memory.pending.count kind + if step = .failNext kind then 1 else 0 := by
  cases step with
  | failNext other => simp [Step.act, failNext, Step.isInjected, List.count_append, List.count_singleton]
  | call request =>
    -- The call shrinks what is pending just if it fails as chosen, as there is nothing to take out otherwise.
    have hinjected : Step.isInjected kind memory (.call request) = true ↔
        request.operation.kind = kind ∧ kind ∈ memory.pending := by
      rw [Step.isInjected, decide_eq_true_iff, perform_eq_injected_iff]
    have hcall : Step.call request ≠ .failNext kind := fun heq => nomatch heq
    rw [Step.act, count_pending_perform, if_neg hcall]
    by_cases hkind : request.operation.kind = kind
    · by_cases hpending : kind ∈ memory.pending
      · have hpositive := List.count_pos_iff.mpr hpending
        rw [if_pos hkind, if_pos (hinjected.mpr ⟨hkind, hpending⟩)]
        omega
      · have hzero := List.count_eq_zero.mpr hpending
        rw [if_pos hkind, if_neg fun h => hpending (hinjected.mp h).2]
        omega
    · rw [if_neg hkind, if_neg fun h => hkind (hinjected.mp h).1, Nat.sub_zero]

/-- Each choice makes one call fail, now or later. -/
theorem count_pending_after (memory : Memory) (kind : Kind) (steps : List Step) :
    (memory.after steps).pending.count kind + injections kind memory steps =
      memory.pending.count kind + steps.count (.failNext kind) := by
  induction steps generalizing memory with
  | nil => rfl
  | cons step rest ih =>
    have hstep := count_pending_act memory kind step
    have hrest := ih (step.act memory)
    have hafter : memory.after (step :: rest) = (step.act memory).after rest := rfl
    rw [hafter, injections, List.count_cons]
    simp only [beq_iff_eq]
    omega

/-- Where no further call of an operation is chosen to fail, each of its calls takes one away from what is pending. -/
theorem count_pending_after_of_notMem (hsteps : .failNext kind ∉ steps) :
    (memory.after steps).pending.count kind = memory.pending.count kind - steps.countP (Step.isCall kind) := by
  induction steps generalizing memory with
  | nil => rfl
  | cons step rest ih =>
    rw [List.mem_cons, not_or] at hsteps
    have hstep : (step.act memory).pending.count kind =
        memory.pending.count kind - if step.isCall kind then 1 else 0 := by
      cases step with
      | failNext other =>
        have hother : other ≠ kind := fun heq => hsteps.1 (congrArg Step.failNext heq.symm)
        simp [Step.act, failNext, Step.isCall, List.count_append, hother]
      | call request => simpa [Step.act, Step.isCall] using count_pending_perform memory request kind
    have hafter : memory.after (step :: rest) = (step.act memory).after rest := rfl
    rw [hafter, ih hsteps.2, hstep, List.countP_cons]
    omega

/-- A call that fails, for whatever reason, leaves all tables as they were; one that succeeds changes no other chain
than its own, and none if it lists. In a run, a call of an operation fails as chosen if fewer of its calls have failed so
than were chosen to; so where no more are chosen, it is the next calls that fail, as many as are pending, whatever other
calls come in between. No call fails as chosen for another operation. -/
theorem atomic_and_local (memory : Memory) :
    (∀ call cause, (memory.perform call).1 = .error cause → (memory.perform call).2.tables = memory.tables) ∧
    (∀ call lines, (memory.perform call).1 = .ok lines →
      memory.tables.SameBut call.chain (memory.perform call).2.tables ∧
        (call.operation = .list → (memory.perform call).2.tables = memory.tables)) ∧
    (∀ steps request kind, ((memory.after steps).perform request).1 = injected kind ↔
      request.operation.kind = kind ∧
        injections kind memory steps < memory.pending.count kind + steps.count (.failNext kind)) ∧
    ∀ steps request kind, .failNext kind ∉ steps → (((memory.after steps).perform request).1 = injected kind ↔
      request.operation.kind = kind ∧ steps.countP (Step.isCall kind) < memory.pending.count kind) := by
  refine ⟨fun call cause h => tables_of_error h, fun call lines h => ⟨Tables.sameBut_of_apply (apply_of_ok h), ?_⟩,
    fun steps request kind => ?_, fun steps request kind hsteps => ?_⟩
  · intro hlist
    obtain ⟨id, operation⟩ := call
    obtain rfl : operation = .list := hlist
    obtain ⟨rules, -, -, hsame⟩ := Tables.apply_list_eq_ok.mp (apply_of_ok h)
    exact hsame
  · have hcount := count_pending_after memory kind steps
    rw [perform_eq_injected_iff, ← List.count_pos_iff]
    refine and_congr_right fun _ => ?_
    omega
  · rw [perform_eq_injected_iff, ← List.count_pos_iff, count_pending_after_of_notMem hsteps, Nat.sub_pos_iff_lt]

/-- A filter in memory with two additions chosen to fail. -/
def twoPending : Memory := (Memory.initial.failNext .bulkAppend).failNext .bulkAppend

/-- What happens to it: an addition is made, a listing is chosen to fail, and a deletion finds no rule. -/
def mixedSteps : List Step :=
  [.call ⟨⟨"filter", "FORWARD"⟩, .bulkAppend [⟨["-j", "ACCEPT"]⟩]⟩, .failNext .list,
    .call ⟨⟨"filter", "FORWARD"⟩, .delete ⟨["-j", "DROP"]⟩⟩]

/-- Rules of which the last jumps to a chain that is not there. -/
def danglingLast : Call := ⟨⟨"filter", "FORWARD"⟩, .bulkAppend [⟨["-j", "ACCEPT"]⟩, ⟨["-j", "nowhere"]⟩]⟩

/-- The second addition fails as chosen, but not the third: it fails for its last rule, and adds none. -/
theorem atomic_and_local_mixed :
    .failNext .bulkAppend ∉ mixedSteps ∧
      ((twoPending.after mixedSteps).perform danglingLast).1 = injected .bulkAppend ∧
      ((twoPending.after (mixedSteps ++ [.call danglingLast])).perform danglingLast).1 ≠ injected .bulkAppend ∧
      ((twoPending.after (mixedSteps ++ [.call danglingLast])).perform danglingLast).1 =
        .error Tables.Refusal.unknownTarget.toError ∧
      ((twoPending.after (mixedSteps ++ [.call danglingLast])).perform danglingLast).2.tables =
        (twoPending.after (mixedSteps ++ [.call danglingLast])).tables := by
  obtain ⟨-, -, -, hnext⟩ := atomic_and_local twoPending
  obtain ⟨hatomic, -⟩ := atomic_and_local (twoPending.after (mixedSteps ++ [.call danglingLast]))
  have hsteps : .failNext .bulkAppend ∉ mixedSteps := by decide
  have hlonger : .failNext .bulkAppend ∉ mixedSteps ++ [.call danglingLast] := by decide
  have hrefused : ((twoPending.after (mixedSteps ++ [.call danglingLast])).perform danglingLast).1 =
      .error Tables.Refusal.unknownTarget.toError := by decide
  refine ⟨hsteps, (hnext mixedSteps danglingLast .bulkAppend hsteps).mpr ⟨rfl, by decide⟩, ?_, hrefused,
    hatomic danglingLast _ hrefused⟩
  intro hinjected
  have hfewer := ((hnext _ danglingLast .bulkAppend hlonger).mp hinjected).2
  exact absurd hfewer (by decide)

end OverlayHost.Filter.Memory
