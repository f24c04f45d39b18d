import OverlayHost.Proofs.Cycle.Calls
import Mathlib.Data.List.Nodup

/-!
# The order in which plans are put into force

Planners whose answers never change, each with a chain of its own. However their cycles are cut short, by planners that
fail or by the enforcer, the calls of the enforcer work through the planners' rule sets in their order: each rule set is
tried until it succeeds, and the next one after that. What is left to be done is the only thing that one cycle hands on
to the next, and it is what is not remembered (`Pending`).
-/

set_option autoImplicit false

namespace OverlayHost.Cycle

variable {π σ : Type} {world : World π σ} {planners : List π} {set : RuleSet} {sets left : List RuleSet}
  {applied : Applied} {log : List (Event π)} {calls : List (RuleSet × Except EnforceError Unit)} {cause : EnforceError}
  {output : π → RuleSet}

/-! ## Working through a list -/

/-- What some calls leave of a list of rule sets that are tried one after the other, each until its first success. -/
inductive Leaves : List RuleSet → List (RuleSet × Except EnforceError Unit) → List RuleSet → Prop where
  | none (sets : List RuleSet) : Leaves sets [] sets
  | failed {set : RuleSet} {rest calls left} (cause : EnforceError) (h : Leaves (set :: rest) calls left) :
      Leaves (set :: rest) ((set, .error cause) :: calls) left
  | succeeded {set : RuleSet} {rest calls left} (h : Leaves rest calls left) :
      Leaves (set :: rest) ((set, .ok ()) :: calls) left

/-- The rule sets that were put into force by some calls. -/
def successes (calls : List (RuleSet × Except EnforceError Unit)) : List RuleSet :=
  (calls.filter fun call => call.2.isOk).map Prod.fst

namespace Leaves

theorem snoc_failed (h : Leaves sets calls (set :: left)) (cause : EnforceError) :
    Leaves sets (calls ++ [(set, .error cause)]) (set :: left) := by
  generalize hremaining : set :: left = remaining at h
  induction h with
  | none sets =>
    subst hremaining
    exact failed cause (none _)
  | failed earlier _ ih => exact failed earlier (ih hremaining)
  | succeeded _ ih => exact succeeded (ih hremaining)

theorem snoc_succeeded (h : Leaves sets calls (set :: left)) : Leaves sets (calls ++ [(set, .ok ())]) left := by
  generalize hremaining : set :: left = remaining at h
  induction h with
  | none sets =>
    subst hremaining
    exact succeeded (none _)
  | failed earlier _ ih => exact failed earlier (ih hremaining)
  | succeeded _ ih => exact succeeded (ih hremaining)

theorem sets_eq (h : Leaves sets calls left) : sets = successes calls ++ left := by
  induction h with
  | none sets => rfl
  | failed cause _ ih => exact ih
  | succeeded _ ih => exact congrArg (_ :: ·) ih

theorem length_add (h : Leaves sets calls left) :
    calls.length + left.length = calls.countP (fun call => !call.2.isOk) + sets.length := by
  induction h with
  | none sets => simp
  | failed cause _ ih =>
    rw [List.length_cons, List.countP_cons_of_pos (by rfl)]
    omega
  | succeeded _ ih =>
    rw [List.length_cons, List.length_cons, List.countP_cons_of_neg (by simp [Except.isOk, Except.toBool])]
    omega

/-- Each call is made for the first rule set that the calls before it leave. -/
theorem split {earlier later : List (RuleSet × Except EnforceError Unit)} {call : RuleSet × Except EnforceError Unit}
    (h : Leaves sets (earlier ++ call :: later) left) : ∃ rest, Leaves sets earlier (call.1 :: rest) := by
  induction earlier generalizing sets with
  | nil =>
    cases h with
    | failed cause h => exact ⟨_, none _⟩
    | succeeded h => exact ⟨_, none _⟩
  | cons first earlier ih =>
    cases h with
    | failed cause h =>
      obtain ⟨rest, hrest⟩ := ih h
      exact ⟨rest, failed cause hrest⟩
    | succeeded h =>
      obtain ⟨rest, hrest⟩ := ih h
      exact ⟨rest, succeeded hrest⟩

end Leaves

theorem mem_successes : set ∈ successes calls ↔ (set, .ok ()) ∈ calls := by
  simp only [successes, List.mem_map, List.mem_filter, Prod.exists, exists_and_right, exists_eq_right]
  constructor
  · rintro ⟨result, hcall, hok⟩
    cases result with
    | error cause => cases hok
    | ok _ => exact hcall
  · intro hcall
    exact ⟨_, hcall, rfl⟩

/-- No call is made for the chain of a rule set that has succeeded. -/
theorem Leaves.chain_ne {earlier later : List (RuleSet × Except EnforceError Unit)}
    {call : RuleSet × Except EnforceError Unit} (h : Leaves sets (earlier ++ call :: later) left)
    (hdistinct : (sets.map RuleSet.chain).Nodup) (hset : (set, .ok ()) ∈ earlier) : call.1.chain ≠ set.chain := by
  obtain ⟨rest, hrest⟩ := h.split
  rw [hrest.sets_eq, List.map_append, List.map_cons, List.nodup_append] at hdistinct
  intro heq
  exact hdistinct.2.2 _ (List.mem_map_of_mem (mem_successes.mpr hset)) _ (List.mem_cons_self ..) heq.symm

/-! ## What is handed on -/

/-- What the calls of a log leave of the wanted rule sets is what is not remembered. -/
structure Pending (sets : List RuleSet) (applied : Applied) (log : List (Event π)) (left : List RuleSet) : Prop where
  leaves : Leaves sets (enforcements log).reverse left
  todo : ∀ set ∈ left, applied.last? set.chain = none
  done : ∀ set ∈ sets, set ∈ left ∨ applied.last? set.chain = some set

namespace Pending

variable {rest : List RuleSet}

theorem start (sets : List RuleSet) : Pending sets Applied.empty ([] : List (Event π)) sets where
  leaves := .none sets
  todo := fun _ _ => rfl
  done := fun _ hset => .inl hset

theorem suffix (h : Pending sets applied log left) : left <:+ sets := ⟨_, h.leaves.sets_eq.symm⟩

theorem planned (h : Pending sets applied log left) (planner : π) (answer : Except PlannerError RuleSet) :
    Pending sets applied (.planned planner answer :: log) left := ⟨h.leaves, h.todo, h.done⟩

theorem enforced_error (h : Pending sets applied log (set :: left)) (cause : EnforceError) (span : Duration) :
    Pending sets applied (.enforced set (.error cause) span :: log) (set :: left) where
  leaves := by
    have hcalls : enforcements (.enforced set (.error cause) span :: log) = (set, .error cause) :: enforcements log :=
      rfl
    rw [hcalls, List.reverse_cons]
    exact h.leaves.snoc_failed cause
  todo := h.todo
  done := h.done

theorem enforced_ok (h : Pending sets applied log (set :: left)) (hdistinct : (sets.map RuleSet.chain).Nodup)
    (span : Duration) : Pending sets (applied.record set) (.enforced set (.ok ()) span :: log) left where
  leaves := by
    have hcalls : enforcements (.enforced set (.ok ()) span :: log) = (set, .ok ()) :: enforcements log := rfl
    rw [hcalls, List.reverse_cons]
    exact h.leaves.snoc_succeeded
  todo := by
    intro other hother
    have hnodup := (h.suffix.sublist.map RuleSet.chain).nodup hdistinct
    have hne : other.chain ≠ set.chain := fun heq =>
      (List.nodup_cons.mp hnodup).1 (List.mem_map.mpr ⟨other, hother, heq⟩)
    rw [Applied.last?_record_of_ne applied hne]
    exact h.todo other (List.mem_cons_of_mem set hother)
  done := by
    intro other hother
    by_cases heq : other.chain = set.chain
    · have hset : set ∈ sets := h.suffix.subset (List.mem_cons_self ..)
      rw [List.inj_on_of_nodup_map hdistinct hother hset heq]
      exact .inr (Applied.last?_record_self applied set)
    · rw [Applied.last?_record_of_ne applied heq]
      rcases h.done other hother with hleft | hdone
      · rcases List.mem_cons.mp hleft with rfl | hleft
        · exact absurd rfl heq
        · exact .inl hleft
      · exact .inr hdone

/-- A rule set that is remembered is not among those that are left. -/
theorem suffix_of_remembered (h : Pending sets applied log left) (hleft : left <:+ set :: rest)
    (hsame : applied.last? set.chain = some set) : left <:+ rest := by
  rcases List.suffix_cons_iff.mp hleft with rfl | hleft
  · rw [h.todo set (List.mem_cons_self ..)] at hsame
    cases hsame
  · exact hleft

/-- A rule set that is not remembered is the first of those that are left, once those before it are done. -/
theorem eq_of_changed (h : Pending sets applied log left) (hdistinct : (sets.map RuleSet.chain).Nodup)
    (hsets : set :: rest <:+ sets) (hleft : left <:+ set :: rest) (hchanged : applied.last? set.chain ≠ some set) :
    left = set :: rest := by
  rcases List.suffix_cons_iff.mp hleft with rfl | hleft
  · rfl
  · have hmem : set ∈ left := (h.done set (hsets.subset (List.mem_cons_self ..))).resolve_right hchanged
    have hnodup := (hsets.sublist.map RuleSet.chain).nodup hdistinct
    exact absurd (List.mem_map_of_mem (hleft.subset hmem)) (List.nodup_cons.mp hnodup).1

/-- The loop over the planners takes up what is left, and leaves nothing if it comes to its end. -/
theorem exists_visit (hdistinct : (sets.map RuleSet.chain).Nodup) (hsets : planners.map output <:+ sets)
    (hfixed : ∀ planner ∈ planners, ∀ state set asked,
      world.plan planner state = (.ok set, asked) → set = output planner)
    (progress : Progress (Logged π σ)) (h : Pending sets progress.applied progress.state.log left)
    (hleft : left <:+ planners.map output) :
    ∃ remaining, Pending sets (visit world.logged planners progress).2.applied
        (visit world.logged planners progress).2.state.log remaining ∧
      ((visit world.logged planners progress).1 = .ok () → remaining = []) := by
  induction planners generalizing progress left with
  | nil => exact ⟨left, h, fun _ => List.suffix_nil.mp hleft⟩
  | cons planner rest ih =>
    have hrest : rest.map output <:+ sets := (List.suffix_cons (output planner) (rest.map output)).trans hsets
    have hothers : ∀ other ∈ rest, ∀ state set asked,
        world.plan other state = (.ok set, asked) → set = output other :=
      fun other hother => hfixed other (List.mem_cons_of_mem planner hother)
    rcases visit_cons_cases world.logged planner rest progress with
      ⟨cause, asked, hanswer, hvisit⟩ | ⟨wanted, asked, hanswer, hturn⟩
    · obtain ⟨hasked, -⟩ := logged_plan hanswer
      rw [hvisit]
      refine ⟨left, ?_, fun hok => nomatch hok⟩
      rw [hasked]
      exact h.planned planner (.error cause)
    · obtain ⟨hasked, hplan⟩ := logged_plan hanswer
      obtain rfl := hfixed planner (List.mem_cons_self ..) _ _ _ hplan
      have hplanned : Pending sets progress.applied asked.log left := by
        rw [hasked]
        exact h.planned planner (.ok (output planner))
      rcases hturn with ⟨hsame, hvisit⟩ | ⟨hchanged, hturn⟩
      · rw [hvisit]
        exact ih hrest hothers { progress with state := asked } hplanned (h.suffix_of_remembered hleft hsame)
      · obtain rfl := h.eq_of_changed hdistinct hsets hleft hchanged
        rcases hturn with ⟨cause, after, henforce, hvisit⟩ | ⟨after, henforce, hvisit⟩
        · obtain ⟨hafter, -⟩ := logged_enforce henforce
          rw [hvisit]
          refine ⟨output planner :: rest.map output, ?_, fun hok => nomatch hok⟩
          rw [hafter]
          exact hplanned.enforced_error cause _
        · obtain ⟨hafter, -⟩ := logged_enforce henforce
          rw [hvisit]
          refine ih hrest hothers _ ?_ List.suffix_rfl
          rw [hafter]
          exact hplanned.enforced_ok hdistinct _

/-- When nothing is left, no later call is made. -/
theorem enforcements_eq {later : List (Event π)} {remembered : Applied} (h : Pending sets applied log [])
    (hlater : Pending sets remembered later left) (hgrown : log <:+ later) : enforcements later = enforcements log := by
  obtain ⟨new, rfl⟩ := hgrown
  have hleaves := hlater.leaves
  rw [enforcements, List.filterMap_append, List.reverse_append] at hleaves
  cases hnew : (new.filterMap Event.enforcement?).reverse with
  | nil =>
    rw [List.reverse_eq_nil_iff] at hnew
    rw [enforcements, List.filterMap_append, hnew, List.nil_append]
    rfl
  | cons call rest =>
    rw [hnew] at hleaves
    obtain ⟨remaining, hremaining⟩ := hleaves.split
    have heq := h.leaves.sets_eq.symm.trans hremaining.sets_eq
    cases List.append_cancel_left heq

/-- Each call failed or put another of the remembered rule sets into force. -/
theorem length_enforcements (h : Pending sets applied log left) (hdistinct : (sets.map RuleSet.chain).Nodup) :
    (enforcements log).length = (enforcements log).countP (fun call => !call.2.isOk) +
      sets.countP fun set => (applied.last? set.chain).isSome := by
  have hsets := h.leaves.sets_eq
  have hnodup : sets.Nodup := hdistinct.of_map _
  rw [hsets, List.nodup_append] at hnodup
  have htodo : left.countP (fun set => (applied.last? set.chain).isSome) = 0 := by
    rw [List.countP_eq_zero]
    intro set hset
    rw [h.todo set hset]
    exact Bool.noConfusion
  have hdone : (successes (enforcements log).reverse).countP (fun set => (applied.last? set.chain).isSome) =
      (successes (enforcements log).reverse).length := by
    rw [List.countP_eq_length]
    intro set hset
    have hmem : set ∈ sets := by
      rw [hsets]
      exact List.mem_append_left left hset
    rcases h.done set hmem with hleft | hdone
    · exact absurd rfl (hnodup.2.2 set hset set hleft)
    · rw [hdone]
      rfl
  have hlength := h.leaves.length_add
  rw [List.length_reverse, List.countP_reverse] at hlength
  have hcount : sets.countP (fun set => (applied.last? set.chain).isSome) + left.length = sets.length := by
    rw [hsets, List.countP_append, htodo, hdone, List.length_append, Nat.add_zero]
  omega

end Pending

/-! ## Cycle after cycle -/

namespace Poll

theorem exists_pending_next (poll : Poll π) (hdistinct : ((planners.map output).map RuleSet.chain).Nodup)
    (hfixed : ∀ planner ∈ planners, ∀ state set asked,
      world.plan planner state = (.ok set, asked) → set = output planner)
    (h : Pending (planners.map output) poll.applied poll.log left) (state : σ) :
    ∃ remaining, Pending (planners.map output) (poll.next world planners state).applied
        (poll.next world planners state).log remaining ∧
      ((run world planners poll.applied state).result = .ok () → remaining = []) := by
  obtain ⟨remaining, hremaining, hnone⟩ := Pending.exists_visit hdistinct List.suffix_rfl hfixed
    { applied := poll.applied, state := ⟨state, poll.log⟩ } h h.suffix
  cases hvisit : visit world.logged planners { applied := poll.applied, state := ⟨state, poll.log⟩ } with
  | mk result progress =>
    obtain ⟨hnext, metrics, hrun, -⟩ := exists_run_of_visit_logged hvisit
    rw [hvisit] at hremaining hnone
    rw [hnext, hrun]
    exact ⟨remaining, hremaining, hnone⟩

theorem exists_pending_after (poll : Poll π) (hdistinct : ((planners.map output).map RuleSet.chain).Nodup)
    (hfixed : ∀ planner ∈ planners, ∀ state set asked,
      world.plan planner state = (.ok set, asked) → set = output planner)
    (h : Pending (planners.map output) poll.applied poll.log left) (states : List σ) :
    ∃ remaining, Pending (planners.map output) (poll.after world planners states).applied
      (poll.after world planners states).log remaining := by
  induction states generalizing poll left with
  | nil => exact ⟨left, h⟩
  | cons state rest ih =>
    obtain ⟨remaining, hremaining, -⟩ := exists_pending_next poll hdistinct hfixed h state
    exact ih (poll.next world planners state) hremaining

end Poll

/-- However the cycles of planners that keep to their answers go, the calls of the enforcer try the first planner's rule
set until it succeeds, then the second one's, and so on. So nothing is put into force again for a chain, nothing before
all that is declared earlier, each call failed or put another planner's rule set into force, and after a cycle without
error there are no more calls. -/
theorem applied_in_order (output : π → RuleSet)
    (hfixed : ∀ planner ∈ planners, ∀ state set asked,
      world.plan planner state = (.ok set, asked) → set = output planner)
    (hdistinct : (planners.map fun planner => (output planner).chain).Nodup) {states : List σ} {poll : Poll π}
    (hpoll : Poll.start.after world planners states = poll) (hcalls : (enforcements poll.log).reverse = calls) :
    (∃ left, Leaves (planners.map output) calls left) ∧
      (∀ earlier set later, calls = earlier ++ (set, .ok ()) :: later → ∀ call ∈ later, call.1.chain ≠ set.chain) ∧
      (∀ earlier call later, calls = earlier ++ call :: later → ∃ before planner after,
        planners = before ++ planner :: after ∧ call.1 = output planner ∧
        ∀ other ∈ before, (output other, .ok ()) ∈ earlier) ∧
      calls.length = calls.countP (fun call => !call.2.isOk) +
        planners.countP (fun planner => (poll.applied.last? (output planner).chain).isSome) ∧
      ∀ state, (run world planners poll.applied state).result = .ok () → ∀ later,
        enforcements ((poll.next world planners state).after world planners later).log =
          enforcements (poll.next world planners state).log := by
  have hdistinct : ((planners.map output).map RuleSet.chain).Nodup := by
    rw [List.map_map]
    exact hdistinct
  obtain ⟨left, hpending⟩ := Poll.start.exists_pending_after hdistinct hfixed (Pending.start _) states
  rw [hpoll] at hpending
  subst hcalls
  refine ⟨⟨left, hpending.leaves⟩, ?_, ?_, ?_, ?_⟩
  · intro earlier set later heq call hcall
    obtain ⟨between, after, rfl⟩ := List.append_of_mem hcall
    have hleaves := hpending.leaves
    rw [heq, ← List.cons_append, ← List.append_assoc] at hleaves
    exact hleaves.chain_ne hdistinct (List.mem_append_right earlier (List.mem_cons_self ..))
  · intro earlier call later heq
    have hleaves := hpending.leaves
    rw [heq] at hleaves
    obtain ⟨rest, hrest⟩ := hleaves.split
    obtain ⟨before, rest, rfl, hbefore, hplanners⟩ := List.map_eq_append_iff.mp hrest.sets_eq
    obtain ⟨planner, after, rfl, hcall, -⟩ := List.map_eq_cons_iff.mp hplanners
    refine ⟨before, planner, after, rfl, hcall.symm, fun other hother => ?_⟩
    rw [← mem_successes, ← hbefore]
    exact List.mem_map_of_mem hother
  · rw [List.length_reverse, List.countP_reverse, hpending.length_enforcements hdistinct, List.countP_map]
    rfl
  · intro state hok later
    obtain ⟨remaining, hnext, hnone⟩ := poll.exists_pending_next hdistinct hfixed hpending state
    obtain rfl := hnone hok
    obtain ⟨rest, hrest⟩ := (poll.next world planners state).exists_pending_after hdistinct hfixed hnext later
    exact hnext.enforcements_eq hrest (Poll.suffix_log_after _ _)

/-- What either of two planners wants. -/
def steadyOutput (index : Nat) : RuleSet := ⟨⟨"filter", "FORWARD", if index = 0 then "p-" else "q-"⟩, []⟩

/-- Planners that keep to their answers, of which one may fail, and an enforcer that takes its answers from a queue. -/
def steadyWorld : World Nat (Nat × List (Except EnforceError Unit)) where
  plan index state := (if index = state.1 then .error (.failed "") else .ok (steadyOutput index), state)
  enforce _ state := (state.2.head?.getD (.ok ()), state.1, state.2.tail)
  now _ := Duration.zero

/-- Why a rule set cannot be put into force. -/
def noMemory : EnforceError := .append (.notStarted "iptables" "no memory")

/-- What three cycles leave of which none comes to its end: the first rule set fails, then the second planner, then the
second rule set. -/
def steadyPoll : Poll Nat :=
  Poll.start.after steadyWorld [0, 1] [(2, [.error noMemory]), (1, []), (2, [.error noMemory])]

/-- Three calls have been made, and the next cycle makes a fourth one, which is the last of all. -/
theorem applied_in_order_steady :
    (∀ planner ∈ [0, 1], ∀ state set asked,
        steadyWorld.plan planner state = (.ok set, asked) → set = steadyOutput planner) ∧
      ([0, 1].map fun planner => (steadyOutput planner).chain).Nodup ∧
      (run steadyWorld [0, 1] steadyPoll.applied (2, [])).result = .ok () ∧
      let calls := [(steadyOutput 0, .error noMemory), (steadyOutput 0, .ok ()), (steadyOutput 1, .error noMemory)]
      (∃ left, Leaves ([0, 1].map steadyOutput) calls left) ∧
        (∀ earlier set later, calls = earlier ++ (set, .ok ()) :: later → ∀ call ∈ later, call.1.chain ≠ set.chain) ∧
        (∀ earlier call later, calls = earlier ++ call :: later → ∃ before planner after,
          [0, 1] = before ++ planner :: after ∧ call.1 = steadyOutput planner ∧
          ∀ other ∈ before, (steadyOutput other, .ok ()) ∈ earlier) ∧
        calls.length = calls.countP (fun call => !call.2.isOk) +
          [0, 1].countP (fun planner => (steadyPoll.applied.last? (steadyOutput planner).chain).isSome) ∧
        ∀ state, (run steadyWorld [0, 1] steadyPoll.applied state).result = .ok () → ∀ later,
          enforcements ((steadyPoll.next steadyWorld [0, 1] state).after steadyWorld [0, 1] later).log =
            enforcements (steadyPoll.next steadyWorld [0, 1] state).log := by
  have hfixed : ∀ planner ∈ [0, 1], ∀ state set asked,
      steadyWorld.plan planner state = (.ok set, asked) → set = steadyOutput planner := by
    intro planner _ state set asked h
    simp only [steadyWorld] at h
    split at h
    · cases h
    · exact (Except.ok.inj (Prod.mk.inj h).1).symm
  have hdistinct : ([0, 1].map fun planner => (steadyOutput planner).chain).Nodup := by decide
  exact ⟨hfixed, hdistinct, by decide, applied_in_order steadyOutput hfixed hdistinct rfl rfl⟩

end OverlayHost.Cycle
