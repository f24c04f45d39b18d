import OverlayHost.Proofs.Cycle.Agreement
import OverlayHost.Proofs.Enforcer.Refinement
import OverlayHost.Proofs.PolicyAgent.Service

/-!
# From the logging endpoint to the filter

An agent in service whose planners are the default policies. `logging_reaches_filter` says what the flag is at any time,
that after a cycle the filter holds for each planner the policy with or without the rule that logs, as the flag was when
that planner was asked, and that just those chains are put into force anew for which it was another one in the cycle
before.
-/

set_option autoImplicit false

namespace OverlayHost.PolicyAgent

open OverlayHost.Cycle (Applied Progress Serves visit visit_cons_cases visit_invariant last?_visit_of_ne)
open OverlayHost.Endpoint.Logging (flagAfter isAccepted respond respond_cases IsLastAccepted isLastAccepted_flagAfter)
open OverlayHost.Enforcer (Layout Clean Shape besides nextIn view)
open OverlayHost.Filter (Memory)

variable {planner : Planner} {planners : List Planner} {flag : Bool} {chains : List Chain} {chain : Chain}
  {start : Filter.Tables} {applied : Applied} {memory : Memory} {set : RuleSet} {agent : PolicyAgent}

/-! ## The default policies -/

/-- A policy for local or for remote traffic; the subnet is not itself an option that names a target. -/
def IsPolicy : Planner → Prop
  | .fixed _ _ => False
  | .localTraffic _ subnet => Rule.isTargetOption subnet = false
  | .remoteTraffic _ _ => True

theorem plan_chain (planner : Planner) (flag : Bool) : (planner.plan flag).chain = planner.chain := by
  cases planner <;> rfl

/-- A policy has other rules when it logs than when it does not. -/
theorem plan_inj (h : IsPolicy planner) {other : Bool} (heq : (planner.plan flag).rules = (planner.plan other).rules) :
    flag = other := by
  have hlength := congrArg List.length heq
  cases planner with
  | fixed => exact absurd h id
  | localTraffic | remoteTraffic => cases flag <;> cases other <;> simp [Planner.plan] at hlength ⊢

theorem isTargetOption_overlayDevice (vni : Nat) : Rule.isTargetOption (Rule.overlayDevice vni) = false := by
  have hhead : (Rule.overlayDevice vni).toList.head? = some 'f' := by simp [Rule.overlayDevice, toString]
  have hne {text : String} (htext : text.toList.head? ≠ some 'f') : Rule.overlayDevice vni ≠ text :=
    fun heq => htext (heq ▸ hhead)
  simp only [Rule.isTargetOption, Bool.or_eq_false_iff, decide_eq_false_iff_not]
  exact ⟨⟨⟨hne (by decide), hne (by decide)⟩, hne (by decide)⟩, hne (by decide)⟩

theorem targetOf_append {guard rest : List String} (hguard : ∀ token ∈ guard, Rule.isTargetOption token = false) :
    Rule.targetOf (guard ++ rest) = Rule.targetOf rest := by
  induction guard with
  | nil => rfl
  | cons token guard ih =>
    obtain ⟨htoken, hguard⟩ := List.forall_mem_cons.mp hguard
    rw [List.cons_append, Rule.targetOf, htoken, ih hguard]
    rfl

section

variable {device : String} {guard : List String}

theorem target?_acceptReplies (hdevice : Rule.isTargetOption device = false) :
    (Rule.acceptReplies device).target? = some "ACCEPT" := by
  have hguard : ∀ token ∈ ["-i", device, "-m", "state", "--state", "ESTABLISHED,RELATED"],
      Rule.isTargetOption token = false := by
    rw [List.forall_mem_cons, List.forall_mem_cons]
    exact ⟨by decide, hdevice, by decide⟩
  exact targetOf_append hguard

theorem target?_log (hguard : ∀ token ∈ guard, Rule.isTargetOption token = false) (name : String) :
    (Rule.log guard name).target? = some "LOG" := targetOf_append hguard

theorem target?_rejectAll (hguard : ∀ token ∈ guard, Rule.isTargetOption token = false) :
    (Rule.rejectAll guard).target? = some "REJECT" := targetOf_append hguard

end

/-- The rules of a policy jump to nothing but what every filter knows. -/
theorem canLoad_plan (h : IsPolicy planner) (flag : Bool) (tables : Filter.Tables) (table : String) :
    ∀ rule ∈ (planner.plan flag).rules, tables.canLoad table rule = true := by
  have hstandard {rule : Rule} {target : String} (htarget : rule.target? = some target)
      (hmem : Filter.Tables.standardTargets.contains target = true) : tables.canLoad table rule = true := by
    rw [Filter.Tables.canLoad, htarget]
    exact Bool.or_eq_true_iff.mpr (.inl hmem)
  have hrules {device name : String} {guard : List String} (hdevice : Rule.isTargetOption device = false)
      (hguard : ∀ token ∈ guard, Rule.isTargetOption token = false) :
      ∀ rule ∈ Rule.acceptReplies device :: (if flag then [Rule.log guard name] else []) ++ [Rule.rejectAll guard],
        tables.canLoad table rule = true := by
    have hlog : ∀ rule ∈ if flag then [Rule.log guard name] else [], tables.canLoad table rule = true := by
      cases flag
      · exact List.forall_mem_nil _
      · exact List.forall_mem_singleton.mpr (hstandard (target?_log hguard name) (by decide))
    rw [List.cons_append, List.forall_mem_cons, List.forall_mem_append, List.forall_mem_singleton]
    exact ⟨hstandard (target?_acceptReplies hdevice) (by decide), hlog,
      hstandard (target?_rejectAll hguard) (by decide)⟩
  cases planner with
  | fixed => exact absurd h id
  | localTraffic chain subnet =>
    refine hrules (by decide) ?_
    simp only [Rule.localGuard, List.forall_mem_cons]
    exact ⟨by decide, by decide, by decide, h, by decide, h, List.forall_mem_nil _⟩
  | remoteTraffic chain vni =>
    refine hrules (isTargetOption_overlayDevice vni) ?_
    simp only [Rule.remoteGuard, List.forall_mem_cons]
    exact ⟨by decide, isTargetOption_overlayDevice vni, List.forall_mem_nil _⟩

/-! ## What the filter holds -/

/-- The filter holds what is remembered, besides what it held at the start. -/
def Held (chains : List Chain) (start : Filter.Tables) (applied : Applied) (memory : Memory) : Prop :=
  memory.pending = [] ∧ ∃ live, Shape chains start live memory.tables ∧ (live.map fun one => one.1.chain).Nodup ∧
    applied.sets = live.map Prod.fst

theorem Held.view_eq_nil (h : Held chains start applied memory) (hlayout : Layout chains) (hclean : Clean chains start)
    (hchain : chain ∈ chains) (hlast : applied.last? chain = none) : view memory.tables chain = [] := by
  obtain ⟨-, live, hshape, -, hsets⟩ := h
  rw [Applied.last?, hsets, List.find?_eq_none] at hlast
  rw [hshape.view_eq hlayout hclean hchain, List.map_eq_nil_iff, List.filter_eq_nil_iff]
  exact fun one hone => hlast one.1 (List.mem_map_of_mem hone)

/-- What is remembered of a chain is what the filter serves. -/
theorem Held.serves (h : Held chains start applied memory) (hlayout : Layout chains) (hclean : Clean chains start)
    (hchain : chain ∈ chains) (hlast : applied.last? chain = some set) : Serves memory.tables set := by
  obtain ⟨-, live, hshape, honce, hsets⟩ := h
  obtain rfl := Applied.chain_of_last? hlast
  have hmem : set ∈ live.map Prod.fst := hsets ▸ List.mem_of_find?_eq_some hlast
  obtain ⟨one, hone, rfl⟩ := List.mem_map.mp hmem
  have hown : one ∈ live.filter fun other => other.1.chain = one.1.chain :=
    List.mem_filter.mpr ⟨hone, decide_eq_true rfl⟩
  rcases Enforcer.none_or_split one.1.chain honce with ⟨hnone, -⟩ | ⟨_, old, _, -, -, hsingle, -⟩
  · rw [hnone] at hown
    cases hown
  · rw [hsingle] at hown
    obtain rfl := List.mem_singleton.mp hown
    exact ⟨one.2, by rw [hshape.view_eq hlayout hclean hchain, hsingle, List.map_singleton]⟩

/-- Enforcing a rule set succeeds. It is held when it is remembered, and no other chain is linked anew. -/
theorem Held.enforce (h : Held chains start applied agent.memory) (hlayout : Layout chains)
    (hclean : Clean chains start) (hset : set.chain ∈ chains) (hloads : ∀ rule ∈ set.rules, start.canLoad set.chain.table rule = true)
    (hlimit : nextIn agent.memory.tables set.chain agent.clock < Generation.limit) :
    (PolicyAgent.enforce set agent).1 = .ok () ∧
      Held chains start (applied.record set) (PolicyAgent.enforce set agent).2.memory ∧
      ∀ chain ∈ chains, chain ≠ set.chain →
        view (PolicyAgent.enforce set agent).2.memory.tables chain = view agent.memory.tables chain := by
  obtain ⟨hpending, live, hshape, honce, hsets⟩ := h
  obtain ⟨after, hyields, hafter⟩ := Enforcer.enforce_yields hshape hlayout hclean honce hset hloads hlimit
  obtain ⟨hresult, htables, hpending⟩ := hyields agent.memory rfl hpending
  rw [← htables] at hafter
  obtain ⟨clock, henforce⟩ := enforce_eq set agent
  rw [henforce]
  refine ⟨hresult, ⟨hpending, _, hafter, Enforcer.nodup_cons_besides set _ honce, ?_⟩, ?_⟩
  · rw [Enforcer.map_fst_cons_besides, ← hsets]
  · intro chain hchain hother
    rw [hafter.view_eq hlayout hclean hchain, hshape.view_eq hlayout hclean hchain,
      List.filter_cons_of_neg (by simpa using hother.symm), besides, List.filter_filter]
    congr 1
    refine List.filter_congr fun one _ => ?_
    by_cases heq : one.1.chain = chain
    · simp [heq, hother]
    · simp [heq]

/-! ## The turns of some planners -/

/-- What the turns of planners come to, each of which read something. -/
structure Asked (chains : List Chain) (start : Filter.Tables) (read : List (Planner × Bool))
    (before after : Progress Underway) : Prop where
  held : Held chains start after.applied after.state.agent.memory
  remembered : ∀ one ∈ read, after.applied.last? one.1.chain = some (one.1.plan one.2)
  others : ∀ chain, (∀ one ∈ read, one.1.chain ≠ chain) → after.applied.last? chain = before.applied.last? chain
  enforced : after.enforced = before.enforced ++
    (read.filter fun one => before.applied.last? one.1.chain ≠ some (one.1.plan one.2)).map fun one => one.1.plan one.2
  /-- The filter is left as it is for all other chains. -/
  views : ∀ chain ∈ chains,
    (∀ one ∈ read, one.1.chain = chain → before.applied.last? chain = some (one.1.plan one.2)) →
      view after.state.agent.memory.tables chain = view before.state.agent.memory.tables chain

theorem Asked.cons {one : Planner × Bool} {read : List (Planner × Bool)} {before next after : Progress Underway}
    (hone : Asked chains start [one] before next) (hrest : Asked chains start read next after)
    (hdistinct : ∀ other ∈ read, other.1.chain ≠ one.1.chain) : Asked chains start (one :: read) before after where
  held := hrest.held
  remembered := by
    rw [List.forall_mem_cons, hrest.others _ hdistinct]
    exact ⟨hone.remembered one (List.mem_singleton_self one), hrest.remembered⟩
  others chain hchain := by
    obtain ⟨hfirst, hchain⟩ := List.forall_mem_cons.mp hchain
    exact (hrest.others chain hchain).trans (hone.others chain (List.forall_mem_singleton.mpr hfirst))
  enforced := by
    have hsame : ∀ other ∈ read, next.applied.last? other.1.chain = before.applied.last? other.1.chain :=
      fun other hother => hone.others _ (List.forall_mem_singleton.mpr (hdistinct other hother).symm)
    have hfilter : (read.filter fun one => next.applied.last? one.1.chain ≠ some (one.1.plan one.2)) =
        read.filter fun one => before.applied.last? one.1.chain ≠ some (one.1.plan one.2) :=
      List.filter_congr fun other hother => by rw [hsame other hother]
    rw [hrest.enforced, hone.enforced, hfilter, List.append_assoc, ← List.map_append, ← List.filter_append,
      List.singleton_append]
  views chain hchain hread := by
    obtain ⟨hfirst, hread⟩ := List.forall_mem_cons.mp hread
    refine (hrest.views chain hchain fun other hother heq => ?_).trans
      (hone.views chain hchain (List.forall_mem_singleton.mpr hfirst))
    rw [hone.others chain (List.forall_mem_singleton.mpr (heq ▸ (hdistinct other hother).symm))]
    exact hread other hother heq

/-- The turn of a policy comes to its end, and the loop goes on with the planners that follow. -/
theorem asked_turn (hlayout : Layout chains) (hclean : Clean chains start) (hpolicy : IsPolicy planner)
    (hchain : planner.chain ∈ chains) (rest : List Planner) {progress : Progress Underway}
    (hheld : Held chains start progress.applied progress.state.agent.memory)
    (hdigits : ∀ generation ∈ (visit Underway.world (planner :: rest) progress).2.state.taken,
      generation < Generation.limit)
    (hflag : flagAfter (requests (progress.state.coming.headD [])) progress.state.agent.logging = flag) :
    ∃ next, visit Underway.world (planner :: rest) progress = visit Underway.world rest next ∧
      Asked chains start [(planner, flag)] progress next ∧
      next.state.agent.logging = flag ∧ next.state.coming = progress.state.coming.tail := by
  obtain ⟨-, hmemory, hread⟩ := progress.state.asked_spec
  rw [hflag] at hread
  have hplan := Underway.plan_eq planner progress.state
  have hcoming : progress.state.asked.coming = progress.state.coming.tail := rfl
  generalize progress.state.asked = asked at hmemory hread hplan hcoming
  rw [hread] at hplan
  have hown := plan_chain planner flag
  rcases visit_cons_cases Underway.world planner rest progress with
    ⟨cause, _, hanswer, -⟩ | ⟨wanted, _, hanswer, hturn⟩
  · cases hplan.symm.trans hanswer
  cases hplan.symm.trans hanswer
  rw [hown] at hturn
  rcases hturn with ⟨hsame, hvisit⟩ | ⟨hchanged, hturn⟩
  · -- what is asked for is remembered already
    refine ⟨_, hvisit, ⟨hmemory ▸ hheld, List.forall_mem_singleton.mpr hsame, fun _ _ => rfl, ?_, ?_⟩, hread, hcoming⟩
    · rw [List.filter_cons_of_neg (by simpa using hsame)]
      exact (List.append_nil _).symm
    · exact fun chain _ _ => congrArg (fun memory => view memory.tables chain) hmemory
  · -- the enforcer is asked to put it into force
    have hlimit : nextIn asked.agent.memory.tables (planner.plan flag).chain asked.agent.clock < Generation.limit := by
      refine hdigits _ ?_
      rcases hturn with ⟨cause, after, henforce, hvisit⟩ | ⟨after, henforce, hvisit⟩
      all_goals
        obtain ⟨-, -, -, htaken, -⟩ := Underway.enforce_spec henforce
        have hlast := htaken ▸ List.mem_append_right asked.taken (List.mem_singleton_self _)
        rw [hvisit]
      · exact hlast
      · exact mem_taken_visit rest hlast
    rw [← hmemory] at hheld
    obtain ⟨hresult, hafter, hviews⟩ := hheld.enforce hlayout hclean (hown ▸ hchain)
      (canLoad_plan hpolicy flag start (planner.plan flag).chain.table) hlimit
    rcases hturn with ⟨cause, after, henforce, -⟩ | ⟨after, henforce, hvisit⟩
    · obtain ⟨-, -, -, -, hagent⟩ := Underway.enforce_spec henforce
      rw [hagent] at hresult
      cases hresult
    · obtain ⟨-, hlogging, hlater, -, hagent⟩ := Underway.enforce_spec henforce
      rw [hagent] at hafter hviews
      refine ⟨_, hvisit, ⟨hafter, ?_, ?_, ?_, ?_⟩, hlogging.trans hread, hlater.trans hcoming⟩
      · exact List.forall_mem_singleton.mpr (hown ▸ Applied.last?_record_self _ _)
      · intro chain hothers
        exact Applied.last?_record_of_ne _ (hown ▸ (List.forall_mem_singleton.mp hothers).symm)
      · rw [List.filter_cons_of_pos (by simpa using hchanged)]
        rfl
      · intro chain hmember hlast
        have hother : chain ≠ planner.chain := fun heq =>
          hchanged (heq ▸ List.forall_mem_singleton.mp hlast heq.symm)
        exact (hviews chain hmember (hown ▸ hother)).trans (congrArg (fun memory => view memory.tables chain) hmemory)

/-- Planners of different chains come to an end with their turns, and each of them has its way. -/
theorem asked_visit (hlayout : Layout chains) (hclean : Clean chains start)
    (hpolicies : ∀ planner ∈ planners, IsPolicy planner) (hchains : ∀ planner ∈ planners, planner.chain ∈ chains)
    (hdistinct : (planners.map Planner.chain).Nodup) {progress : Progress Underway}
    (hheld : Held chains start progress.applied progress.state.agent.memory)
    (hdigits : ∀ generation ∈ (visit Underway.world planners progress).2.state.taken, generation < Generation.limit) :
    (visit Underway.world planners progress).1 = .ok () ∧
      Asked chains start (readings progress.state.agent.logging planners progress.state.coming) progress
        (visit Underway.world planners progress).2 := by
  induction planners generalizing progress with
  | nil => exact ⟨rfl, hheld, by simp [readings], fun _ _ => rfl, by simp [readings, visit], fun _ _ _ => rfl⟩
  | cons planner rest ih =>
    obtain ⟨hpolicy, hpolicies⟩ := List.forall_mem_cons.mp hpolicies
    obtain ⟨hchain, hchains⟩ := List.forall_mem_cons.mp hchains
    obtain ⟨hfirst, hdistinct⟩ := List.nodup_cons.mp hdistinct
    obtain ⟨next, hvisit, hturn, hflag, hcoming⟩ := asked_turn hlayout hclean hpolicy hchain rest hheld hdigits rfl
    rw [hvisit] at hdigits ⊢
    obtain ⟨hresult, hrest⟩ := ih hpolicies hchains hdistinct hturn.held hdigits
    rw [hflag, hcoming] at hrest
    refine ⟨hresult, hturn.cons hrest fun other hother heq => hfirst (heq ▸ List.mem_map_of_mem ?_)⟩
    rw [← map_fst_readings _ rest progress.state.coming.tail]
    exact List.mem_map_of_mem hother

/-! ## Agents in service -/

/-- A new agent whose planners are policies for chains that can be told apart, on a filter that holds their parents and
nothing that mentions a generation of theirs, and where nothing is to fail. -/
structure Ready (agent : PolicyAgent) : Prop where
  policies : ∀ planner ∈ agent.planners, IsPolicy planner
  distinct : (agent.planners.map fun planner => (planner.chain.table, planner.chain.stem)).Nodup
  blankFree : ∀ planner ∈ agent.planners, Generation.BlankFree planner.chain.stem
  clean : Clean (agent.planners.map Planner.chain) agent.memory.tables
  pending : agent.memory.pending = []
  applied : agent.applied = Applied.empty

theorem Ready.layout (h : Ready agent) : Layout (agent.planners.map Planner.chain) where
  blankFree := List.forall_mem_map.mpr h.blankFree
  distinct := by
    refine List.forall_mem_map.mpr fun planner hplanner => List.forall_mem_map.mpr fun other hother htable hstem => ?_
    exact congrArg Planner.chain (List.inj_on_of_nodup_map h.distinct hplanner hother (Prod.ext htable hstem))

theorem Ready.nodup (h : Ready agent) : (agent.planners.map Planner.chain).Nodup := by
  refine List.Nodup.of_map (fun chain => (chain.table, chain.stem)) ?_
  rw [List.map_map]
  exact h.distinct

/-- What holds of an agent in service: the filter holds what is remembered, which is what the planners read. -/
structure Sound (agent : PolicyAgent) (service : Service) : Prop where
  planners : service.agent.planners = agent.planners
  held : Held (agent.planners.map Planner.chain) agent.memory.tables service.agent.applied service.agent.memory
  remembers : ∀ planner ∈ agent.planners, ∀ set, service.agent.applied.last? planner.chain = some set ↔
    ∃ flag, (planner, flag) ∈ service.read ∧ planner.plan flag = set

variable {service : Service} {coming : List (List Incident)}

theorem Ready.sound (h : Ready agent) : Sound agent { agent } where
  planners := rfl
  held := by
    refine ⟨h.pending, [], Enforcer.shape_nil _ _, List.nodup_nil, ?_⟩
    rw [h.applied]
    rfl
  remembers planner _ set := by
    rw [h.applied]
    simp [Applied.empty, Applied.last?]

theorem Sound.asked (hready : Ready agent) (h : Sound agent service)
    (hdigits : ∀ generation ∈ (service.turn (.cycle coming)).taken, generation < Generation.limit) :
    (service.outcome coming).result = .ok () ∧
      Asked (agent.planners.map Planner.chain) agent.memory.tables (service.turn (.cycle coming)).read
        { applied := service.agent.applied, state := ⟨service.agent, coming, service.taken⟩ }
        (visit Underway.world service.agent.planners
          { applied := service.agent.applied, state := ⟨service.agent, coming, service.taken⟩ }).2 := by
  have hplanners := h.planners
  refine asked_visit hready.layout hready.clean ?_ ?_ ?_ h.held hdigits <;> rw [hplanners]
  · exact hready.policies
  · exact fun planner hplanner => List.mem_map_of_mem hplanner
  · exact hready.nodup

theorem Sound.turn (hready : Ready agent) (h : Sound agent service) (turn : Turn)
    (hdigits : ∀ generation ∈ (service.turn turn).taken, generation < Generation.limit) :
    Sound agent (service.turn turn) := by
  cases turn with
  | incident incident => cases incident <;> exact ⟨h.planners, h.held, h.remembers⟩
  | cycle coming =>
    obtain ⟨-, hasked⟩ := h.asked hready hdigits
    refine ⟨(service.turn_quiet _).1.trans h.planners, service.memory_turn coming ▸ hasked.held, ?_⟩
    intro planner hplanner set
    rw [← h.planners, ← map_fst_readings service.agent.logging service.agent.planners coming] at hplanner
    obtain ⟨⟨planner, flag⟩, hread, rfl⟩ := List.mem_map.mp hplanner
    constructor
    · intro hlast
      exact ⟨flag, hread, Option.some.inj ((hasked.remembered _ hread).symm.trans hlast)⟩
    · rintro ⟨other, hother, rfl⟩
      exact hasked.remembered _ hother

theorem Sound.after (hready : Ready agent) (h : Sound agent service) (turns : List Turn)
    (hdigits : ∀ generation ∈ (service.after turns).taken, generation < Generation.limit) :
    Sound agent (service.after turns) := by
  induction turns generalizing service with
  | nil => exact h
  | cons turn rest ih =>
    refine ih (h.turn hready turn fun generation htaken => ?_) hdigits
    exact hdigits generation (Service.mem_taken_after htaken rest)

/-- What is remembered is what a planner asks for just if it read the same before. -/
theorem Sound.last?_eq_iff (hready : Ready agent) (h : Sound agent service) (hplanner : planner ∈ agent.planners) :
    service.agent.applied.last? planner.chain = some (planner.plan flag) ↔ (planner, flag) ∈ service.read := by
  rw [h.remembers planner hplanner]
  constructor
  · rintro ⟨other, hread, hsame⟩
    rwa [← plan_inj (hready.policies planner hplanner) (congrArg RuleSet.rules hsame)]
  · exact fun hread => ⟨flag, hread, rfl⟩

theorem Sound.mem_planners {one : Planner × Bool} (h : Sound agent service)
    (hone : one ∈ (service.turn (.cycle coming)).read) : one.1 ∈ agent.planners := by
  rw [← h.planners, ← map_fst_readings service.agent.logging service.agent.planners coming]
  exact List.mem_map_of_mem hone

/-- A cycle leaves the generation of a chain in its place just if the chain's planner read the same before. -/
theorem Sound.view_eq_iff (hready : Ready agent) (h : Sound agent service)
    (hdigits : ∀ generation ∈ (service.turn (.cycle coming)).taken, generation < Generation.limit)
    {one : Planner × Bool} (hone : one ∈ (service.turn (.cycle coming)).read) :
    view (service.turn (.cycle coming)).agent.memory.tables one.1.chain =
      view service.agent.memory.tables one.1.chain ↔ one ∈ service.read := by
  obtain ⟨planner, flag⟩ := one
  have hplanner : planner ∈ agent.planners := h.mem_planners hone
  have hchain : planner.chain ∈ agent.planners.map Planner.chain := List.mem_map_of_mem hplanner
  constructor
  · intro hsame
    have hafter := h.turn hready (.cycle coming) hdigits
    obtain ⟨generation, hserves⟩ := hafter.held.serves hready.layout hready.clean hchain
      ((hafter.last?_eq_iff hready hplanner).mpr hone)
    rw [plan_chain] at hserves
    replace hserves := hsame.symm.trans hserves
    cases hbefore : service.agent.applied.last? planner.chain with
    | none =>
      rw [h.held.view_eq_nil hready.layout hready.clean hchain hbefore] at hserves
      cases hserves
    | some set =>
      obtain ⟨other, hread, rfl⟩ := (h.remembers planner hplanner set).mp hbefore
      obtain ⟨old, hold⟩ := h.held.serves hready.layout hready.clean hchain hbefore
      rw [plan_chain, hserves] at hold
      have hrules := Option.some.inj (Prod.mk.inj (List.cons.inj hold).1).2
      obtain rfl : flag = other := plan_inj (hready.policies planner hplanner) hrules
      exact hread
  · intro hread
    obtain ⟨-, hasked⟩ := h.asked hready hdigits
    have hlast := hasked.remembered _ hone
    rw [service.memory_turn coming]
    refine hasked.views planner.chain hchain fun other hother heq => ?_
    have hother := hasked.remembered other hother
    rw [heq, hlast] at hother
    rw [← hother]
    exact (h.last?_eq_iff hready hplanner).mpr hread

/-! ## What the endpoint, the planners and the enforcer come to -/

/-- Whether the parent of a policy's chain links one generation of it, which accepts replies, logs what follows if it is
asked to, and rejects it in the end. -/
def Policed (tables : Filter.Tables) (flag : Bool) : Planner → Prop
  | .fixed _ _ => False
  | .localTraffic chain subnet => ∃ generation, view tables chain = [(generation, some (Rule.acceptLocal ::
      (if flag then [Rule.logLocal subnet] else []) ++ [Rule.denyLocal subnet]))]
  | .remoteTraffic chain vni => ∃ generation, view tables chain = [(generation, some (Rule.acceptRemote vni ::
      (if flag then [Rule.logRemote vni] else []) ++ [Rule.denyRemote vni]))]

theorem policed_of_serves {tables : Filter.Tables} (h : IsPolicy planner) (hserves : Serves tables (planner.plan flag)) :
    Policed tables flag planner := by
  cases planner with
  | fixed => exact absurd h id
  | localTraffic | remoteTraffic => exact hserves

/-- An agent that has been in service for some turns. -/
def serving (agent : PolicyAgent) (turns : List Turn) : Service := Service.after { agent } turns

/-- What a cycle comes to that follows some turns, when incidents come before each planner is asked. -/
structure Reached (agent : PolicyAgent) (turns : List Turn) (coming : List (List Incident)) (before after : Service) :
    Prop where
  flag : IsLastAccepted (turns.flatMap Turn.requests) agent.logging before.agent.logging
  /-- Any other request changes nothing, in a cycle or between two. -/
  refused : ∀ (met : PolicyAgent) (request : Http.Request),
    isAccepted (request, (respond request met.logging).1) = false → met.meet (.request request) = met
  result : (before.outcome coming).result = .ok ()
  /-- Each planner reads the flag of the moment, and the filter holds its policy accordingly. -/
  policed : ∀ index planner, agent.planners[index]? = some planner → ∃ flag,
    after.read[index]? = some (planner, flag) ∧
      IsLastAccepted (turns.flatMap Turn.requests ++ requests (coming.take (index + 1)).flatten) agent.logging flag ∧
      Policed after.agent.memory.tables flag planner
  /-- Nothing is read before the first cycle. -/
  first : (∀ coming, Turn.cycle coming ∉ turns) → before.read = []
  /-- What is put into force anew is what was not read in the cycle before. -/
  enforced : (before.outcome coming).enforced =
    (after.read.filter fun one => one ∉ before.read).map fun one => one.1.plan one.2
  kept : ∀ one ∈ after.read,
    view after.agent.memory.tables one.1.chain = view before.agent.memory.tables one.1.chain ↔ one ∈ before.read
  /-- A cycle into which nothing comes is the agent's own. -/
  alone : coming = [] → (before.outcome coming).result = before.agent.cycle.1 ∧ after.agent = before.agent.cycle.2

/-- The flag is always what was asked for last, and after each cycle the filter shows it as the planners read it. -/
theorem logging_reaches_filter (hready : Ready agent) (turns : List Turn) (coming : List (List Incident))
    (hdigits : ∀ generation ∈ ((agent.serving turns).turn (.cycle coming)).taken, generation < Generation.limit) :
    Reached agent turns coming (agent.serving turns) ((agent.serving turns).turn (.cycle coming)) := by
  have hbefore : Sound agent (agent.serving turns) := by
    refine hready.sound.after hready turns fun generation htaken => hdigits generation ?_
    exact Service.mem_taken_after htaken [.cycle coming]
  have hflag : (agent.serving turns).agent.logging = flagAfter (turns.flatMap Turn.requests) agent.logging :=
    Service.logging_after { agent } turns
  obtain ⟨hresult, hasked⟩ := hbefore.asked hready hdigits
  refine ⟨hflag ▸ isLastAccepted_flagAfter _ _, ?_, hresult, ?_, Service.read_after { agent }, ?_, ?_, ?_⟩
  · intro met request hrefused
    rcases respond_cases request met.logging with ⟨haccepted, -⟩ | ⟨-, hsame⟩
    · rw [haccepted] at hrefused
      cases hrefused
    · rw [meet, hsame]
  · intro index planner hplanner
    have hmember := List.mem_of_getElem? hplanner
    rw [← hbefore.planners] at hplanner
    have hread := getElem?_readings coming hplanner (agent.serving turns).agent.logging
    rw [hflag, ← flagAfter_append, ← hflag] at hread
    refine ⟨_, hread, isLastAccepted_flagAfter _ _, ?_⟩
    have hafter := hbefore.turn hready (.cycle coming) hdigits
    exact policed_of_serves (hready.policies planner hmember) (hafter.held.serves hready.layout hready.clean
      (List.mem_map_of_mem hmember) ((hafter.last?_eq_iff hready hmember).mpr (List.mem_of_getElem? hread)))
  · refine hasked.enforced.trans (congrArg (List.map _) (List.filter_congr fun one hone => ?_))
    exact decide_eq_decide.mpr (not_congr (hbefore.last?_eq_iff hready (hbefore.mem_planners hone)))
  · exact fun one hone => hbefore.view_eq_iff hready hdigits hone
  · rintro rfl
    exact (agent.serving turns).turn_alone

def bothPolicies : PolicyAgent where
  planners := [.remoteTraffic ⟨"filter", "FORWARD", "remote-"⟩ 1,
    .localTraffic ⟨"filter", "FORWARD", "local-"⟩ "10.1.0.0/16"]
  clock := 1700000000

def turnOn : Http.Request where
  method := "PUT"
  uri := ⟨none, none, Endpoint.Logging.path, none⟩
  body := "\x7b\"enabled\":true\x7d".toUTF8.toList

/-- Logging is turned on in a second cycle between the question to one planner and that to the other. -/
theorem logging_turned_on_between_planners :
    Ready bothPolicies ∧
      ((bothPolicies.serving [.cycle []]).turn (.cycle [[], [.request turnOn]])).taken =
        [1700000000, 1700000000, 1700000001] ∧
      ((bothPolicies.serving [.cycle []]).turn (.cycle [[], [.request turnOn]])).read.map Prod.snd = [false, true] ∧
      Reached bothPolicies [.cycle []] [[], [.request turnOn]] (bothPolicies.serving [.cycle []])
        ((bothPolicies.serving [.cycle []]).turn (.cycle [[], [.request turnOn]])) := by
  have htarget : Rule.isTargetOption "10.1.0.0/16" = false := by decide
  have hready : Ready bothPolicies := {
    policies := List.forall_mem_cons.mpr ⟨trivial, List.forall_mem_singleton.mpr htarget⟩
    distinct := by decide
    blankFree := by decide
    clean := Enforcer.clean_initial (by decide)
    pending := rfl
    applied := rfl }
  have htaken : ((bothPolicies.serving [.cycle []]).turn (.cycle [[], [.request turnOn]])).taken =
      [1700000000, 1700000000, 1700000001] := by decide +kernel
  refine ⟨hready, htaken, by decide +kernel, logging_reaches_filter hready _ _ ?_⟩
  rw [htaken]
  decide

end OverlayHost.PolicyAgent
