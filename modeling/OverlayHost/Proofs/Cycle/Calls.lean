import OverlayHost.Cycle.Scripted
import OverlayHost.Proofs.Cycle.Visit
import Mathlib.Data.List.Infix

/-!
# What a poll cycle calls

A world that enters each of its answers in a log, the last one first, and what can be read off the log of cycles that
were run on it, whatever its planners and its enforcer answer. `remembers_visit` says what is remembered, `exists_told`
what the calls of one cycle are, and `remembered_and_called` puts both together with what is reported.
-/

set_option autoImplicit false

namespace OverlayHost.Cycle

variable {π σ : Type} {world : World π σ} {planner : π} {planners rest : List π} {set : RuleSet} {chain : Chain}
  {applied : Applied} {result : Except CycleError Unit} {cause : EnforceError} {span : Duration}

/-! ## A log of calls -/

/-- A call of a cycle with its answer. -/
inductive Event (π : Type) where
  /-- A planner was asked. -/
  | planned (planner : π) (answer : Except PlannerError RuleSet)
  /-- The enforcer was given a rule set, and took some time over it. -/
  | enforced (set : RuleSet) (result : Except EnforceError Unit) (time : Duration)

namespace Event

/-- The planner that was asked. -/
def planner? : Event π → Option π
  | planned planner _ => some planner
  | enforced _ _ _ => none

/-- The rule set that a planner answered. -/
def output? : Event π → Option RuleSet
  | planned _ (.ok set) => some set
  | planned _ (.error _) | enforced _ _ _ => none

/-- The rule set that the enforcer was given, with its answer. -/
def enforcement? : Event π → Option (RuleSet × Except EnforceError Unit)
  | planned _ _ => none
  | enforced set result _ => some (set, result)

/-- The error of the cycle that the answer is, if it is one. -/
def error? : Event π → Option CycleError
  | planned _ (.error cause) => some (.plan cause)
  | enforced _ (.error cause) _ => some (.enforce cause)
  | planned _ (.ok _) | enforced _ (.ok _) _ => none

/-- The time taken by the enforcer. -/
def time : Event π → Duration
  | planned _ _ => Duration.zero
  | enforced _ _ time => time

end Event

variable {events log : List (Event π)}

/-- The calls of the enforcer among some events. -/
def enforcements (events : List (Event π)) : List (RuleSet × Except EnforceError Unit) :=
  events.filterMap Event.enforcement?

/-- The time taken by the enforcer in all. -/
def timeOf : List (Event π) → Duration
  | [] => Duration.zero
  | event :: rest => event.time + timeOf rest

theorem timeOf_planned (answer : Except PlannerError RuleSet) :
    (timeOf (.planned planner answer :: events)).nanoseconds = (timeOf events).nanoseconds := by
  simp [timeOf, Event.time, Duration.zero]

theorem timeOf_enforced (result : Except EnforceError Unit) :
    (timeOf (.enforced set result span :: events)).nanoseconds = span.nanoseconds + (timeOf events).nanoseconds := rfl

/-- The rule set of the last call of the enforcer for a chain that succeeded. -/
def lastEnforced (log : List (Event π)) (chain : Chain) : Option RuleSet :=
  ((enforcements log).find? fun call => call.1.chain = chain && call.2.isOk).map Prod.fst

/-- A state with a log of what was asked of it, the last call first. -/
structure Logged (π σ : Type) where
  state : σ
  log : List (Event π) := []

/-- A world that enters all its answers, with the time that passed while the enforcer was at work. -/
def World.logged (world : World π σ) : World π (Logged π σ) where
  plan planner logged :=
    let (answer, state) := world.plan planner logged.state
    (answer, ⟨state, .planned planner answer :: logged.log⟩)
  enforce set logged :=
    let (result, state) := world.enforce set logged.state
    (result, ⟨state, .enforced set result (world.now state - world.now logged.state) :: logged.log⟩)
  now logged := world.now logged.state

theorem logged_plan {logged asked : Logged π σ} {answer : Except PlannerError RuleSet}
    (h : world.logged.plan planner logged = (answer, asked)) :
    asked.log = .planned planner answer :: logged.log ∧ world.plan planner logged.state = (answer, asked.state) := by
  obtain ⟨hanswer, hasked⟩ := Prod.mk.inj h
  rw [← hasked, ← hanswer]
  exact ⟨rfl, rfl⟩

theorem logged_enforce {logged after : Logged π σ} {result : Except EnforceError Unit}
    (h : world.logged.enforce set logged = (result, after)) :
    after.log = .enforced set result (world.now after.state - world.now logged.state) :: logged.log ∧
      world.enforce set logged.state = (result, after.state) := by
  obtain ⟨hresult, hafter⟩ := Prod.mk.inj h
  rw [← hafter, ← hresult]
  exact ⟨rfl, rfl⟩

/-! ## What is remembered -/

/-- Whether the rule sets remembered are those that a log shows to have been put into force last. -/
def Remembers (applied : Applied) (log : List (Event π)) : Prop :=
  ∀ chain, applied.last? chain = lastEnforced log chain

theorem remembers_nil : Remembers Applied.empty ([] : List (Event π)) := fun _ => rfl

theorem Remembers.planned (h : Remembers applied log) (answer : Except PlannerError RuleSet) :
    Remembers applied (.planned planner answer :: log) := h

theorem Remembers.enforced_error (h : Remembers applied log) :
    Remembers applied (.enforced set (.error cause) span :: log) := by
  intro chain
  rw [h chain]
  simp [lastEnforced, enforcements, Event.enforcement?, Except.isOk, Except.toBool]

theorem Remembers.enforced_ok (h : Remembers applied log) :
    Remembers (applied.record set) (.enforced set (.ok ()) span :: log) := by
  intro chain
  by_cases heq : chain = set.chain
  · rw [heq, Applied.last?_record_self]
    simp [lastEnforced, enforcements, Event.enforcement?, Except.isOk, Except.toBool]
  · rw [Applied.last?_record_of_ne applied heq, h chain]
    have hne : ¬ set.chain = chain := fun hsame => heq hsame.symm
    simp [lastEnforced, enforcements, Event.enforcement?, hne]

theorem remembers_visit (progress : Progress (Logged π σ)) (h : Remembers progress.applied progress.state.log) :
    Remembers (visit world.logged planners progress).2.applied (visit world.logged planners progress).2.state.log := by
  refine visit_invariant (fun applied (logged : Logged π σ) => Remembers applied logged.log) ?_ ?_ ?_ h
  · intro planner _ applied logged answer asked hbefore hanswer
    rw [(logged_plan hanswer).1]
    exact hbefore.planned answer
  · intro planner _ applied logged wanted asked after hasked _ _ henforce
    rw [(logged_enforce henforce).1]
    exact hasked.enforced_ok
  · intro planner _ applied logged wanted asked cause after hasked _ _ henforce
    rw [(logged_enforce henforce).1]
    exact hasked.enforced_error

/-- The log only grows. -/
theorem suffix_log_visit (progress : Progress (Logged π σ)) :
    progress.state.log <:+ (visit world.logged planners progress).2.state.log := by
  refine visit_invariant (fun _ (logged : Logged π σ) => progress.state.log <:+ logged.log) ?_ ?_ ?_ List.suffix_rfl
  · intro planner _ _ logged answer asked hbefore hanswer
    rw [(logged_plan hanswer).1]
    exact hbefore.trans (List.suffix_cons ..)
  · intro planner _ _ logged wanted asked after hasked _ _ henforce
    rw [(logged_enforce henforce).1]
    exact hasked.trans (List.suffix_cons ..)
  · intro planner _ _ logged wanted asked cause after hasked _ _ henforce
    rw [(logged_enforce henforce).1]
    exact hasked.trans (List.suffix_cons ..)

/-! ## What is called -/

/-- Whether no call was answered by an error, or only the last one by the error that is the result. -/
def EndsAtError (events : List (Event π)) (result : Except CycleError Unit) : Prop :=
  (result = .ok () ∧ ∀ event ∈ events, event.error? = none) ∨
    ∃ earlier last cause, events = earlier ++ [last] ∧ (∀ event ∈ earlier, event.error? = none) ∧
      last.error? = some cause ∧ result = .error cause

/-- Whether each call of the enforcer follows directly on the answer that it is made for. -/
def Direct (events : List (Event π)) : Prop :=
  ∀ earlier set result span later, events = earlier ++ .enforced set result span :: later →
    ∃ planner, earlier.getLast? = some (.planned planner (.ok set))

/-- Whether an answer is given to the enforcer next just if it differs from the rule set that was put into force last
for its chain, before these events or among them. -/
def Selective (log events : List (Event π)) : Prop :=
  ∀ earlier planner set later, events = earlier ++ .planned planner (.ok set) :: later →
    ((∃ result span rest, later = .enforced set result span :: rest) ↔
      lastEnforced (earlier.reverse ++ log) set.chain ≠ some set)

/-- What the calls of a cycle are, after the calls of a log. -/
structure Told (planners : List π) (log events : List (Event π)) (result : Except CycleError Unit) : Prop where
  /-- The planners are asked in their order. -/
  asked : events.filterMap Event.planner? <+: planners
  /-- All of them are, if there is no error. -/
  all : result = .ok () → events.filterMap Event.planner? = planners
  /-- The first error ends the cycle and is its result. -/
  ended : EndsAtError events result
  direct : Direct events
  selective : Selective log events

theorem EndsAtError.cons {event : Event π} (h : EndsAtError events result) (hnone : event.error? = none) :
    EndsAtError (event :: events) result := by
  have hcons {later : List (Event π)} (hlater : ∀ event ∈ later, event.error? = none) :
      ∀ other ∈ event :: later, other.error? = none := List.forall_mem_cons.mpr ⟨hnone, hlater⟩
  rcases h with ⟨hok, hevents⟩ | ⟨earlier, last, cause, rfl, hearlier, hlast, hresult⟩
  · exact .inl ⟨hok, hcons hevents⟩
  · exact .inr ⟨event :: earlier, last, cause, rfl, hcons hearlier, hlast, hresult⟩

theorem direct_nil : Direct ([] : List (Event π)) := by
  intro earlier set result span later heq
  simp at heq

theorem Direct.cons_planned (h : Direct events) (answer : Except PlannerError RuleSet) :
    Direct (.planned planner answer :: events) := by
  intro earlier set result span later heq
  cases earlier with
  | nil => cases heq
  | cons first earlier =>
    obtain ⟨other, hother⟩ := h earlier set result span later (List.cons.inj heq).2
    exact ⟨other, by rw [List.getLast?_cons, hother, Option.getD_some]⟩

theorem Direct.cons_enforced (h : Direct events) (result : Except EnforceError Unit) :
    Direct (.planned planner (.ok set) :: .enforced set result span :: events) := by
  intro earlier called answer other later heq
  rcases earlier with - | ⟨first, - | ⟨second, earlier⟩⟩
  · cases heq
  · cases heq
    exact ⟨planner, rfl⟩
  · obtain ⟨-, htail⟩ := List.cons.inj heq
    obtain ⟨asked, hasked⟩ := h earlier called answer other later (List.cons.inj htail).2
    exact ⟨asked, by rw [List.getLast?_cons, List.getLast?_cons, hasked, Option.getD_some, Option.getD_some]⟩

theorem selective_nil (log : List (Event π)) : Selective log [] := by
  intro earlier planner set later heq
  simp at heq

theorem selective_plan_error (log : List (Event π)) (planner : π) (cause : PlannerError) :
    Selective log [.planned planner (.error cause)] := by
  intro earlier other set later heq
  simp [List.singleton_eq_append_iff] at heq

theorem Selective.cons_unchanged (h : Selective (.planned planner (.ok set) :: log) events) (hdirect : Direct events)
    (hsame : lastEnforced log set.chain = some set) : Selective log (.planned planner (.ok set) :: events) := by
  intro earlier other wanted later heq
  cases earlier with
  | nil =>
    cases heq
    refine ⟨?_, fun hchanged => absurd hsame hchanged⟩
    rintro ⟨result, span, rest, rfl⟩
    obtain ⟨asked, hasked⟩ := hdirect [] set result span rest rfl
    cases hasked
  | cons first earlier =>
    obtain ⟨rfl, htail⟩ := List.cons.inj heq
    rw [List.reverse_cons, List.append_assoc]
    exact h earlier other wanted later htail

theorem Selective.cons_enforced {result : Except EnforceError Unit}
    (h : Selective (.enforced set result span :: .planned planner (.ok set) :: log) events)
    (hchanged : lastEnforced log set.chain ≠ some set) :
    Selective log (.planned planner (.ok set) :: .enforced set result span :: events) := by
  intro earlier other wanted later heq
  rcases earlier with - | ⟨first, - | ⟨second, earlier⟩⟩
  · cases heq
    exact ⟨fun _ => hchanged, fun _ => ⟨result, span, events, rfl⟩⟩
  · cases heq
  · obtain ⟨rfl, htail⟩ := List.cons.inj heq
    obtain ⟨rfl, hrest⟩ := List.cons.inj htail
    rw [List.reverse_cons, List.reverse_cons, List.append_assoc, List.append_assoc]
    exact h earlier other wanted later hrest

/-! The four ways in which a planner's turn can go, each by the calls that it adds. -/

theorem told_nil (log : List (Event π)) : Told ([] : List π) log [] (.ok ()) where
  asked := List.prefix_rfl
  all := fun _ => rfl
  ended := .inl ⟨rfl, by simp⟩
  direct := direct_nil
  selective := selective_nil log

theorem told_plan_error (planner : π) (rest : List π) (log : List (Event π)) (cause : PlannerError) :
    Told (planner :: rest) log [.planned planner (.error cause)] (.error (.plan cause)) where
  asked := ⟨rest, rfl⟩
  all := fun hok => nomatch hok
  ended := .inr ⟨[], _, _, rfl, by simp, rfl, rfl⟩
  direct := direct_nil.cons_planned _
  selective := selective_plan_error log planner cause

theorem Told.cons_unchanged (h : Told rest (.planned planner (.ok set) :: log) events result)
    (hsame : lastEnforced log set.chain = some set) :
    Told (planner :: rest) log (.planned planner (.ok set) :: events) result where
  asked := List.cons_prefix_cons.mpr ⟨rfl, h.asked⟩
  all := fun hok => congrArg (planner :: ·) (h.all hok)
  ended := h.ended.cons rfl
  direct := h.direct.cons_planned _
  selective := h.selective.cons_unchanged h.direct hsame

theorem told_enforce_error (planner : π) (rest : List π) (cause : EnforceError) (span : Duration)
    (hchanged : lastEnforced log set.chain ≠ some set) :
    Told (planner :: rest) log [.planned planner (.ok set), .enforced set (.error cause) span]
      (.error (.enforce cause)) where
  asked := ⟨rest, rfl⟩
  all := fun hok => nomatch hok
  ended := .inr ⟨[.planned planner (.ok set)], _, _, rfl, by simp [Event.error?], rfl, rfl⟩
  direct := direct_nil.cons_enforced _
  selective := (selective_nil _).cons_enforced hchanged

theorem Told.cons_enforced
    (h : Told rest (.enforced set (.ok ()) span :: .planned planner (.ok set) :: log) events result)
    (hchanged : lastEnforced log set.chain ≠ some set) :
    Told (planner :: rest) log (.planned planner (.ok set) :: .enforced set (.ok ()) span :: events) result where
  asked := List.cons_prefix_cons.mpr ⟨rfl, h.asked⟩
  all := fun hok => congrArg (planner :: ·) (h.all hok)
  ended := (h.ended.cons rfl).cons rfl
  direct := h.direct.cons_enforced _
  selective := h.selective.cons_enforced hchanged

/-- The calls that the loop over the planners makes, and what it counts of them. -/
theorem exists_told (world : World π σ) (planners : List π) (progress : Progress (Logged π σ))
    (h : Remembers progress.applied progress.state.log) :
    ∃ events, Told planners progress.state.log events (visit world.logged planners progress).1 ∧
      (visit world.logged planners progress).2.state.log = events.reverse ++ progress.state.log ∧
      (visit world.logged planners progress).2.enforced =
        progress.enforced ++ (enforcements events).map Prod.fst ∧
      ((visit world.logged planners progress).1 = .ok () →
        (visit world.logged planners progress).2.spent.nanoseconds =
          progress.spent.nanoseconds + (timeOf events).nanoseconds) := by
  induction planners generalizing progress with
  | nil => exact ⟨[], told_nil _, rfl, (List.append_nil _).symm, fun _ => rfl⟩
  | cons planner rest ih =>
    rcases visit_cons_cases world.logged planner rest progress with
      ⟨cause, asked, hanswer, hvisit⟩ | ⟨wanted, asked, hanswer, hturn⟩
    · obtain ⟨hasked, -⟩ := logged_plan hanswer
      rw [hvisit]
      exact ⟨_, told_plan_error planner rest progress.state.log cause, hasked, (List.append_nil _).symm,
        fun hok => nomatch hok⟩
    · obtain ⟨hasked, -⟩ := logged_plan hanswer
      have hplanned : Remembers progress.applied asked.log := by
        rw [hasked]
        exact h.planned _
      rw [h wanted.chain] at hturn
      rcases hturn with ⟨hsame, hvisit⟩ | ⟨hchanged, ⟨cause, after, henforce, hvisit⟩ | ⟨after, henforce, hvisit⟩⟩
      · rw [hvisit]
        obtain ⟨events, htold, hlog, henforced, hspent⟩ := ih { progress with state := asked } hplanned
        rw [hasked] at htold hlog
        refine ⟨_, htold.cons_unchanged hsame, ?_, henforced, ?_⟩
        · rw [hlog, List.reverse_cons, List.append_assoc]
          rfl
        · intro hok
          rw [hspent hok, timeOf_planned]
      · obtain ⟨hafter, -⟩ := logged_enforce henforce
        rw [hvisit]
        refine ⟨_, told_enforce_error planner rest cause (world.now after.state - world.now asked.state) hchanged, ?_,
          rfl, fun hok => nomatch hok⟩
        rw [hafter, hasked]
        rfl
      · obtain ⟨hafter, -⟩ := logged_enforce henforce
        have hrecorded : Remembers (progress.applied.record wanted) after.log := by
          rw [hafter]
          exact hplanned.enforced_ok
        rw [hvisit]
        obtain ⟨events, htold, hlog, henforced, hspent⟩ := ih
          { applied := progress.applied.record wanted
            state := after
            spent := progress.spent + (world.logged.now after - world.logged.now asked)
            enforced := progress.enforced ++ [wanted] } hrecorded
        rw [hafter, hasked] at htold hlog
        refine ⟨_, htold.cons_enforced hchanged, ?_, ?_, ?_⟩
        · rw [hlog, List.reverse_cons, List.reverse_cons, List.append_assoc, List.append_assoc]
          rfl
        · rw [henforced, List.append_assoc]
          rfl
        · intro hok
          rw [hspent hok, timeOf_planned, timeOf_enforced, Duration.nanoseconds_add, Nat.add_assoc]
          rfl

/-! ## What is reported -/

/-- Whether time never goes back while the world is at work. -/
structure World.Forward (world : World π σ) : Prop where
  plan : ∀ planner state answer asked, world.plan planner state = (answer, asked) → world.now state ≤ world.now asked
  enforce : ∀ set state result after, world.enforce set state = (result, after) → world.now state ≤ world.now after

theorem timeOf_append (events log : List (Event π)) :
    (timeOf (events ++ log)).nanoseconds = (timeOf events).nanoseconds + (timeOf log).nanoseconds := by
  induction events with
  | nil => exact (Nat.zero_add _).symm
  | cons event rest ih =>
    simp only [List.cons_append, timeOf, Duration.nanoseconds_add, ih]
    omega

theorem timeOf_reverse (events : List (Event π)) :
    (timeOf events.reverse).nanoseconds = (timeOf events).nanoseconds := by
  induction events with
  | nil => rfl
  | cons event rest ih =>
    rw [List.reverse_cons, timeOf_append, ih]
    simp only [timeOf, Duration.nanoseconds_add, Duration.zero]
    omega

/-- The time taken by the enforcer passes while the loop is at work. -/
theorem timeOf_visit_le (hforward : world.Forward) (planners : List π) (progress : Progress (Logged π σ)) :
    (timeOf (visit world.logged planners progress).2.state.log).nanoseconds +
        (world.now progress.state.state).nanoseconds ≤
      (timeOf progress.state.log).nanoseconds +
        (world.now (visit world.logged planners progress).2.state.state).nanoseconds := by
  refine visit_invariant (fun _ (logged : Logged π σ) =>
    (timeOf logged.log).nanoseconds + (world.now progress.state.state).nanoseconds ≤
      (timeOf progress.state.log).nanoseconds + (world.now logged.state).nanoseconds) ?_ ?_ ?_ (Nat.le_refl _)
  · intro planner _ _ logged answer asked hbefore hanswer
    obtain ⟨hlog, hplan⟩ := logged_plan hanswer
    have htime := Duration.le_iff_nanoseconds.mp (hforward.plan _ _ _ _ hplan)
    rw [hlog, timeOf_planned]
    omega
  · intro planner _ _ logged wanted asked after hasked _ _ henforce
    obtain ⟨hlog, henforce⟩ := logged_enforce henforce
    have htime := Duration.le_iff_nanoseconds.mp (hforward.enforce _ _ _ _ henforce)
    rw [hlog, timeOf_enforced, Duration.nanoseconds_sub]
    omega
  · intro planner _ _ logged wanted asked cause after hasked _ _ henforce
    obtain ⟨hlog, henforce⟩ := logged_enforce henforce
    have htime := Duration.le_iff_nanoseconds.mp (hforward.enforce _ _ _ _ henforce)
    rw [hlog, timeOf_enforced, Duration.nanoseconds_sub]
    omega

/-! ## Cycle after cycle -/

/-- What has been done so far, without the log. -/
def Progress.unlogged (progress : Progress (Logged π σ)) : Progress σ := { progress with state := progress.state.state }

/-- The loop does the same whether its world is logged or not. -/
theorem visit_unlogged (world : World π σ) (planners : List π) (progress : Progress (Logged π σ)) :
    visit world planners progress.unlogged =
      ((visit world.logged planners progress).1, (visit world.logged planners progress).2.unlogged) := by
  induction planners generalizing progress with
  | nil => rfl
  | cons planner rest ih =>
    rcases visit_cons_cases world.logged planner rest progress with
      ⟨cause, asked, hanswer, hvisit⟩ | ⟨wanted, asked, hanswer, hturn⟩
    · obtain ⟨-, hplan⟩ := logged_plan hanswer
      rw [hvisit]
      simp only [visit, Progress.unlogged, hplan]
    · obtain ⟨-, hplan⟩ := logged_plan hanswer
      rcases hturn with ⟨hsame, hvisit⟩ | ⟨hchanged, ⟨cause, after, henforce, hvisit⟩ | ⟨after, henforce, hvisit⟩⟩
      · rw [hvisit, ← ih]
        simp only [visit, Progress.unlogged, hplan, hsame, if_true]
      · obtain ⟨-, hfailed⟩ := logged_enforce henforce
        rw [hvisit]
        simp only [visit, Progress.unlogged, hplan, hchanged, if_false, hfailed]
      · obtain ⟨-, hdone⟩ := logged_enforce henforce
        rw [hvisit, ← ih]
        simp only [visit, Progress.unlogged, hplan, hchanged, if_false, hdone]
        rfl

/-- What is remembered after some cycles, and the calls made by them, the last one first. -/
structure Poll (π : Type) where
  applied : Applied := Applied.empty
  log : List (Event π) := []

namespace Poll

/-- Nothing has been polled. -/
def start : Poll π := {}

/-- What another cycle leaves, run where the surroundings are in some state. -/
def next (world : World π σ) (planners : List π) (poll : Poll π) (state : σ) : Poll π :=
  let outcome := run world.logged planners poll.applied ⟨state, poll.log⟩
  ⟨outcome.applied, outcome.state.log⟩

/-- What is remembered and has been called when another cycle has come through some of its planners, or has ended among
them. -/
def during (world : World π σ) (planners : List π) (poll : Poll π) (state : σ) (count : Nat) : Poll π :=
  let progress := (visit world.logged (planners.take count) { applied := poll.applied, state := ⟨state, poll.log⟩ }).2
  ⟨progress.applied, progress.state.log⟩

/-- What some cycles leave. The surroundings may be in any state when a cycle begins. -/
def after (world : World π σ) (planners : List π) (poll : Poll π) (states : List σ) : Poll π :=
  states.foldl (next world planners) poll

theorem remembers_after (poll : Poll π) (h : Remembers poll.applied poll.log) (states : List σ) :
    Remembers (poll.after world planners states).applied (poll.after world planners states).log := by
  induction states generalizing poll with
  | nil => exact h
  | cons state rest ih =>
    exact ih (poll.next world planners state)
      (remembers_visit { applied := poll.applied, state := ⟨state, poll.log⟩ } h)

theorem suffix_log_after (poll : Poll π) (states : List σ) : poll.log <:+ (poll.after world planners states).log := by
  induction states generalizing poll with
  | nil => exact List.suffix_rfl
  | cons state rest ih =>
    exact (suffix_log_visit { applied := poll.applied, state := ⟨state, poll.log⟩ }).trans
      (ih (poll.next world planners state))

end Poll

/-- A cycle as it shows in the run of its loop on the log. -/
theorem exists_run_of_visit_logged {poll : Poll π} {state : σ} {progress : Progress (Logged π σ)}
    (h : visit world.logged planners { applied := poll.applied, state := ⟨state, poll.log⟩ } = (result, progress)) :
    poll.next world planners state = ⟨progress.applied, progress.state.log⟩ ∧
      ∃ metrics, run world planners poll.applied state =
          ⟨result, progress.applied, progress.state.state, progress.enforced, metrics⟩ ∧
        (result ≠ .ok () → metrics = []) ∧
        (result = .ok () → metrics = [.duration enforceTimeMetric progress.spent,
          .duration pollTimeMetric (world.now progress.state.state - world.now state)]) := by
  have hvisit : visit world planners { applied := poll.applied, state } = (result, progress.unlogged) := by
    have hvisit := visit_unlogged world planners { applied := poll.applied, state := ⟨state, poll.log⟩ }
    rw [h] at hvisit
    exact hvisit
  refine ⟨by rw [Poll.next, run, h], ?_⟩
  rw [run, hvisit]
  cases result with
  | error cause => exact ⟨_, rfl, fun _ => rfl, fun hok => nomatch hok⟩
  | ok _ => exact ⟨_, rfl, fun herror => absurd rfl herror, fun _ => rfl⟩

/-- Over any cycles and in the middle of one, what is remembered for a chain is the rule set that was put into force
last for it. A cycle asks its planners in order up to the first error, and calls the enforcer just for the answers that
differ from what was put into force last. It reports nothing if it ends in an error, and otherwise the time taken by the
enforcer and the time taken in all. -/
theorem remembered_and_called (hforward : world.Forward) {states : List σ} {poll : Poll π}
    (hpoll : Poll.start.after world planners states = poll) {state : σ} {outcome : Outcome σ}
    (houtcome : run world planners poll.applied state = outcome) :
    (∀ count chain, (poll.during world planners state count).applied.last? chain =
          lastEnforced (poll.during world planners state count).log chain ∧
        ∀ set, (poll.during world planners state count).applied.last? chain = some set → set.chain = chain) ∧
      ∃ events, poll.next world planners state = ⟨outcome.applied, events.reverse ++ poll.log⟩ ∧
        Told planners poll.log events outcome.result ∧
        outcome.enforced = (enforcements events).map Prod.fst ∧
        (outcome.result ≠ .ok () → outcome.metrics = []) ∧
        (outcome.result = .ok () →
          outcome.metrics = [.duration enforceTimeMetric (timeOf events),
              .duration pollTimeMetric (world.now outcome.state - world.now state)] ∧
            timeOf events ≤ world.now outcome.state - world.now state) := by
  have hremembers : Remembers poll.applied poll.log := by
    rw [← hpoll]
    exact Poll.start.remembers_after remembers_nil states
  refine ⟨fun count chain => ⟨?_, fun set => Applied.chain_of_last?⟩, ?_⟩
  · exact remembers_visit { applied := poll.applied, state := ⟨state, poll.log⟩ } hremembers chain
  cases hvisit : visit world.logged planners { applied := poll.applied, state := ⟨state, poll.log⟩ } with
  | mk result progress =>
    obtain ⟨events, htold, hlog, hcalls, hspent⟩ := exists_told world planners
      { applied := poll.applied, state := ⟨state, poll.log⟩ } hremembers
    have htime := timeOf_visit_le hforward planners { applied := poll.applied, state := ⟨state, poll.log⟩ }
    rw [hvisit] at htold hlog hcalls hspent htime
    obtain ⟨hnext, metrics, hrun, hnone, hmetrics⟩ := exists_run_of_visit_logged hvisit
    rw [hrun] at houtcome
    subst houtcome
    refine ⟨events, by rw [hnext, hlog], htold, hcalls, hnone, ?_⟩
    intro hok
    have hspent : progress.spent = timeOf events := congrArg Duration.mk ((hspent hok).trans (Nat.zero_add _))
    rw [hlog, timeOf_append, timeOf_reverse] at htime
    refine ⟨by rw [hmetrics hok, hspent], ?_⟩
    rw [Duration.le_iff_nanoseconds, Duration.nanoseconds_sub]
    dsimp only at htime ⊢
    omega

theorem forward_script : Script.world.Forward where
  plan := by
    intro index script answer asked h
    simp only [Script.world] at h ⊢
    split at h
    · obtain ⟨-, rfl⟩ := Prod.mk.inj h
      exact Nat.le_add_right ..
    · obtain ⟨-, rfl⟩ := Prod.mk.inj h
      exact Nat.le_refl _
  enforce := by
    intro set script result after h
    obtain ⟨-, rfl⟩ := Prod.mk.inj h
    exact Nat.le_add_right ..

/-- Three planners of which the first two plan for one chain, and the next answers of the enforcer. -/
def sharedScript (answers : List (Except EnforceError Unit)) : Script where
  plans := [⟨.ok ⟨⟨"filter", "FORWARD", "p-"⟩, [Rule.acceptLocal]⟩, ⟨1⟩⟩,
    ⟨.ok ⟨⟨"filter", "FORWARD", "p-"⟩, []⟩, ⟨2⟩⟩, ⟨.ok ⟨⟨"filter", "FORWARD", "q-"⟩, []⟩, ⟨3⟩⟩]
  enforcer := answers
  enforcerDelay := ⟨5⟩

/-- What a cycle leaves in which the third rule set cannot be put into force. -/
def sharedPoll : Poll Nat :=
  Poll.start.after Script.world [0, 1, 2]
    [sharedScript [.ok (), .ok (), .error (.append (.notStarted "iptables" "no memory"))]]

/-- The next cycle puts all three rule sets into force, as the first two replace each other. -/
theorem remembered_and_called_shared :
    let outcome := run Script.world [0, 1, 2] sharedPoll.applied (sharedScript [])
    outcome.result = .ok () ∧
      outcome.metrics = [.duration enforceTimeMetric ⟨15⟩, .duration pollTimeMetric ⟨21⟩] ∧
      (∀ count chain, (sharedPoll.during Script.world [0, 1, 2] (sharedScript []) count).applied.last? chain =
          lastEnforced (sharedPoll.during Script.world [0, 1, 2] (sharedScript []) count).log chain ∧
        ∀ set, (sharedPoll.during Script.world [0, 1, 2] (sharedScript []) count).applied.last? chain = some set →
          set.chain = chain) ∧
      ∃ events, sharedPoll.next Script.world [0, 1, 2] (sharedScript []) =
          ⟨outcome.applied, events.reverse ++ sharedPoll.log⟩ ∧
        Told [0, 1, 2] sharedPoll.log events outcome.result ∧
        outcome.enforced = (enforcements events).map Prod.fst ∧
        (outcome.result ≠ .ok () → outcome.metrics = []) ∧
        (outcome.result = .ok () →
          outcome.metrics = [.duration enforceTimeMetric (timeOf events),
              .duration pollTimeMetric (Script.world.now outcome.state - Script.world.now (sharedScript []))] ∧
            timeOf events ≤ Script.world.now outcome.state - Script.world.now (sharedScript [])) :=
  ⟨by decide, by decide, remembered_and_called forward_script rfl rfl⟩

end OverlayHost.Cycle
