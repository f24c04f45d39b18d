import OverlayHost.PolicyAgent
import OverlayHost.Proofs.Cycle.Visit
import OverlayHost.Proofs.Endpoint.Logging
import OverlayHost.Proofs.Enforcer.Links
import OverlayHost.Proofs.Filter.Execution

/-!
# An agent in service

An agent to which requests come at any time, also between the questions to two planners of one cycle, and whose clock may
be set just as often. Its flag depends on the requests alone: `logging_after` says that it is what answering them one
after the other makes of it, wherever the cycles stand among them.
-/

set_option autoImplicit false

namespace OverlayHost.PolicyAgent

open OverlayHost.Cycle (Applied visit visit_invariant)
open OverlayHost.Endpoint.Logging (flagAfter)
open OverlayHost.Enforcer (nextIn)
open OverlayHost.Filter (Memory Program)

/-! ## The enforcer on an agent -/

/-- Whether a program never reads the clock. -/
def IsTimeless {α : Type} : Program α → Prop
  | .done _ => True
  | .call _ next => ∀ reply, IsTimeless (next reply)
  | .clock _ => False

theorem run_of_isTimeless {α : Type} {program : Program α} (h : IsTimeless program) (agent : PolicyAgent) (now : Nat) :
    program.run host agent = ((program.run (Memory.host now) agent.memory).1,
      { agent with memory := (program.run (Memory.host now) agent.memory).2 }) := by
  induction program generalizing agent with
  | done result => rfl
  | call request next ih => exact ih _ (h _) { agent with memory := (agent.memory.perform request).2 }
  | clock next ih => exact absurd h id

theorem isTimeless_discard (id : Filter.ChainId) (error : EnforceError) : IsTimeless (Enforcer.discard id error) :=
  fun _ _ => trivial

theorem isTimeless_removeAll (chain : Chain) (found : List Nat) : IsTimeless (Enforcer.removeAll chain found) := by
  induction found with
  | nil => trivial
  | cons old rest ih =>
    unfold Enforcer.removeAll
    rintro (cause | lines)
    · trivial
    rintro (cause | lines)
    · trivial
    rintro (cause | lines)
    · trivial
    · exact ih

theorem isTimeless_replace (set : RuleSet) (found : List Nat) (now : Nat) :
    IsTimeless (Enforcer.replace set found now) := by
  unfold Enforcer.replace
  rintro (cause | lines)
  · trivial
  rintro (cause | lines)
  · exact isTimeless_discard _ _
  rintro (cause | lines)
  · exact isTimeless_discard _ _
  · exact isTimeless_removeAll _ _

/-- The enforcer does to an agent's filter what it does to a filter, at the time that the agent's clock shows. -/
theorem enforce_eq (set : RuleSet) (agent : PolicyAgent) : ∃ clock, enforce set agent =
    (((Enforcer.enforce set).run (Memory.host agent.clock) agent.memory).1,
      { agent with memory := ((Enforcer.enforce set).run (Memory.host agent.clock) agent.memory).2, clock := clock }) := by
  unfold enforce Enforcer.enforce
  simp only [Program.run, host, Memory.host]
  generalize agent.memory.perform ⟨⟨set.chain.table, set.chain.parent⟩, .list⟩ = listed
  obtain ⟨cause | lines, memory⟩ := listed
  · exact ⟨agent.clock, rfl⟩
  · refine ⟨agent.clock + agent.clockStep, ?_⟩
    exact run_of_isTimeless (isTimeless_replace set _ agent.clock)
      { agent with memory, clock := agent.clock + agent.clockStep } agent.clock

/-! ## What comes from outside -/

/-- What may happen to an agent at any time. -/
inductive Incident where
  | request (request : Http.Request)
  | clock (now : Nat)

def requests (incidents : List Incident) : List Http.Request :=
  incidents.filterMap fun
    | .request request => some request
    | .clock _ => none

def meet (agent : PolicyAgent) : Incident → PolicyAgent
  | .request request => { agent with logging := (Endpoint.Logging.respond request agent.logging).2 }
  | .clock now => { agent with clock := now }

def meetAll (agent : PolicyAgent) (incidents : List Incident) : PolicyAgent := incidents.foldl meet agent

theorem meetAll_eq (agent : PolicyAgent) (incidents : List Incident) : ∃ clock,
    agent.meetAll incidents = { agent with logging := flagAfter (requests incidents) agent.logging, clock := clock } := by
  induction incidents generalizing agent with
  | nil => exact ⟨agent.clock, rfl⟩
  | cons incident rest ih =>
    obtain ⟨clock, hrest⟩ := ih (agent.meet incident)
    refine ⟨clock, hrest.trans ?_⟩
    cases incident <;> rfl

/-! ## Cycles into which requests come -/

/-- An agent in a cycle. -/
structure Underway where
  agent : PolicyAgent
  /-- What comes before each of the planners that are still to be asked is asked. -/
  coming : List (List Incident)
  /-- The generations that were taken so far. -/
  taken : List Nat

namespace Underway

/-- The state in which the next planner is asked. -/
def asked (state : Underway) : Underway :=
  { state with agent := state.agent.meetAll (state.coming.headD []), coming := state.coming.tail }

/-- The world of a cycle into which requests come. -/
def world : Cycle.World Planner Underway where
  plan planner state :=
    let (answer, agent) := PolicyAgent.world.plan planner state.asked.agent
    (answer, { state.asked with agent })
  enforce set state :=
    let (result, agent) := PolicyAgent.world.enforce set state.agent
    let generation := nextIn state.agent.memory.tables set.chain state.agent.clock
    (result, { state with agent, taken := state.taken ++ [generation] })
  now state := PolicyAgent.world.now state.agent

end Underway

/-- Planners that are asked one after the other, each with what it reads. -/
def readings (flag : Bool) : List Planner → List (List Incident) → List (Planner × Bool)
  | [], _ => []
  | planner :: rest, coming =>
    let read := flagAfter (requests (coming.headD [])) flag
    (planner, read) :: readings read rest coming.tail

/-- An agent between two cycles. -/
structure Service where
  agent : PolicyAgent
  /-- The planners that were asked in the last cycle, each with what it read. -/
  read : List (Planner × Bool) := []
  /-- The generations that were taken so far. -/
  taken : List Nat := []

/-- What may happen between two cycles, and a cycle. -/
inductive Turn where
  | incident (incident : Incident)
  /-- A cycle, and what comes before each planner is asked and, in the end, before the next turn. -/
  | cycle (coming : List (List Incident))

def Turn.requests : Turn → List Http.Request
  | .incident one => PolicyAgent.requests [one]
  | .cycle coming => PolicyAgent.requests coming.flatten

namespace Service

def outcome (service : Service) (coming : List (List Incident)) : Cycle.Outcome Underway :=
  Cycle.run Underway.world service.agent.planners service.agent.applied ⟨service.agent, coming, service.taken⟩

def turn (service : Service) : Turn → Service
  | .incident incident => { service with agent := service.agent.meet incident }
  | .cycle coming =>
    let outcome := service.outcome coming
    let agent := outcome.state.agent.meetAll outcome.state.coming.flatten
    { agent := { agent with applied := outcome.applied, metrics := service.agent.metrics ++ outcome.metrics }
      read := readings service.agent.logging service.agent.planners coming
      taken := outcome.state.taken }

def after (service : Service) (turns : List Turn) : Service := turns.foldl turn service

end Service

variable {planner : Planner} {planners : List Planner} {coming : List (List Incident)}

/-! ## What a cycle leaves alone -/

theorem requests_append (first second : List Incident) :
    requests (first ++ second) = requests first ++ requests second := List.filterMap_append

theorem flagAfter_append (first second : List Http.Request) (enabled : Bool) :
    flagAfter (first ++ second) enabled = flagAfter second (flagAfter first enabled) := List.foldl_append

/-- A planner that is asked reads what answering all requests so far makes of the flag. -/
theorem getElem?_readings (coming : List (List Incident)) {index : Nat} (h : planners[index]? = some planner)
    (flag : Bool) :
    (readings flag planners coming)[index]? =
      some (planner, flagAfter (requests (coming.take (index + 1)).flatten) flag) := by
  induction planners generalizing index coming flag with
  | nil => cases h
  | cons first rest ih =>
    cases index with
    | zero =>
      obtain rfl := Option.some.inj h
      cases coming <;> simp [readings]
    | succ index =>
      rw [readings, List.getElem?_cons_succ, ih _ h, ← flagAfter_append, ← requests_append]
      cases coming <;> simp

theorem map_fst_readings (flag : Bool) (planners : List Planner) (coming : List (List Incident)) :
    (readings flag planners coming).map Prod.fst = planners := by
  induction planners generalizing flag coming with
  | nil => rfl
  | cons first rest ih => exact congrArg (first :: ·) (ih _ _)

theorem Underway.plan_eq (planner : Planner) (state : Underway) :
    Underway.world.plan planner state = (.ok (planner.plan state.asked.agent.logging), state.asked) := rfl

theorem Underway.asked_spec (state : Underway) :
    state.asked.agent.planners = state.agent.planners ∧ state.asked.agent.memory = state.agent.memory ∧
      state.asked.agent.logging = flagAfter (requests (state.coming.headD [])) state.agent.logging := by
  obtain ⟨clock, hagent⟩ := meetAll_eq state.agent (state.coming.headD [])
  rw [Underway.asked, hagent]
  exact ⟨rfl, rfl, rfl⟩

/-- The enforcer changes the filter and the clock, and takes a generation. -/
theorem Underway.enforce_spec {state after : Underway} {set : RuleSet} {result : Except EnforceError Unit}
    (h : Underway.world.enforce set state = (result, after)) :
    after.agent.planners = state.agent.planners ∧ after.agent.logging = state.agent.logging ∧
      after.coming = state.coming ∧
      after.taken = state.taken ++ [nextIn state.agent.memory.tables set.chain state.agent.clock] ∧
      PolicyAgent.enforce set state.agent = (result, after.agent) := by
  obtain ⟨rfl, rfl⟩ := Prod.mk.inj h
  obtain ⟨clock, henforce⟩ := enforce_eq set state.agent
  refine ⟨?_, ?_, rfl, rfl, rfl⟩
  · exact congrArg (fun after => after.2.planners) henforce
  · exact congrArg (fun after => after.2.logging) henforce

/-- A cycle does not change the planners, or what the flag will be when all that comes has been met. -/
theorem visit_quiet (planners : List Planner) (progress : Cycle.Progress Underway) :
    (visit Underway.world planners progress).2.state.agent.planners = progress.state.agent.planners ∧
      flagAfter (requests (visit Underway.world planners progress).2.state.coming.flatten)
          (visit Underway.world planners progress).2.state.agent.logging =
        flagAfter (requests progress.state.coming.flatten) progress.state.agent.logging := by
  refine visit_invariant (fun _ (state : Underway) => state.agent.planners = progress.state.agent.planners ∧
      flagAfter (requests state.coming.flatten) state.agent.logging =
        flagAfter (requests progress.state.coming.flatten) progress.state.agent.logging) ?_ ?_ ?_ ⟨rfl, rfl⟩
  · intro planner _ _ state _ asked ⟨hplanners, hflag⟩ hanswer
    rw [Underway.plan_eq] at hanswer
    obtain rfl := congrArg Prod.snd hanswer
    obtain ⟨hsame, -, hlogging⟩ := state.asked_spec
    refine ⟨hsame.trans hplanners, ?_⟩
    rw [hlogging, ← hflag, ← flagAfter_append, ← requests_append, Underway.asked]
    cases state.coming <;> rfl
  · intro planner _ _ _ wanted asked after ⟨hplanners, hflag⟩ _ _ henforce
    obtain ⟨hsame, hlogging, hcoming, -⟩ := Underway.enforce_spec henforce
    exact ⟨hsame.trans hplanners, by rw [hlogging, hcoming, hflag]⟩
  · intro planner _ _ _ wanted asked _ after ⟨hplanners, hflag⟩ _ _ henforce
    obtain ⟨hsame, hlogging, hcoming, -⟩ := Underway.enforce_spec henforce
    exact ⟨hsame.trans hplanners, by rw [hlogging, hcoming, hflag]⟩

/-- A cycle takes generations, and does not forget those that were taken before. -/
theorem mem_taken_visit {generation : Nat} (planners : List Planner) {progress : Cycle.Progress Underway}
    (h : generation ∈ progress.state.taken) :
    generation ∈ (visit Underway.world planners progress).2.state.taken := by
  have henforced {state after : Underway} {wanted : RuleSet} {result : Except EnforceError Unit}
      (hstate : generation ∈ state.taken) (henforce : Underway.world.enforce wanted state = (result, after)) :
      generation ∈ after.taken := by
    obtain ⟨-, -, -, htaken, -⟩ := Underway.enforce_spec henforce
    exact htaken ▸ List.mem_append_left _ hstate
  refine visit_invariant (fun _ (state : Underway) => generation ∈ state.taken) ?_ ?_ ?_ h
  · intro planner _ _ state _ asked hstate hanswer
    rw [Underway.plan_eq] at hanswer
    obtain rfl := congrArg Prod.snd hanswer
    exact hstate
  · intro planner _ _ _ wanted asked after hasked _ _ henforce
    exact henforced hasked henforce
  · intro planner _ _ _ wanted asked _ after hasked _ _ henforce
    exact henforced hasked henforce

theorem Service.turn_quiet (service : Service) (turn : Turn) :
    (service.turn turn).agent.planners = service.agent.planners ∧
      (service.turn turn).agent.logging = flagAfter turn.requests service.agent.logging := by
  cases turn with
  | incident incident => cases incident <;> exact ⟨rfl, rfl⟩
  | cycle coming =>
    have hquiet := visit_quiet service.agent.planners
      { applied := service.agent.applied, state := ⟨service.agent, coming, service.taken⟩ }
    obtain ⟨clock, hmet⟩ := meetAll_eq (service.outcome coming).state.agent
      (service.outcome coming).state.coming.flatten
    simp only [Service.turn, hmet]
    exact hquiet

/-- The flag after some turns is what answering their requests one after the other makes of it. -/
theorem Service.logging_after (service : Service) (turns : List Turn) :
    (service.after turns).agent.logging = flagAfter (turns.flatMap Turn.requests) service.agent.logging := by
  induction turns generalizing service with
  | nil => rfl
  | cons turn rest ih =>
    rw [List.flatMap_cons, flagAfter_append, ← (service.turn_quiet turn).2]
    exact ih (service.turn turn)

theorem Service.memory_turn (service : Service) (coming : List (List Incident)) :
    (service.turn (.cycle coming)).agent.memory = (service.outcome coming).state.agent.memory := by
  obtain ⟨clock, hmet⟩ := meetAll_eq (service.outcome coming).state.agent
    (service.outcome coming).state.coming.flatten
  simp only [Service.turn, hmet]

theorem Service.mem_taken_after {generation : Nat} {service : Service} (h : generation ∈ service.taken)
    (turns : List Turn) : generation ∈ (service.after turns).taken := by
  induction turns generalizing service with
  | nil => exact h
  | cons turn rest ih =>
    refine @ih (service.turn turn) ?_
    cases turn with
    | incident incident => exact h
    | cycle coming =>
      exact @mem_taken_visit generation service.agent.planners
        { applied := service.agent.applied, state := ⟨service.agent, coming, service.taken⟩ } h

theorem Service.read_after {turns : List Turn} (service : Service) (h : ∀ coming, Turn.cycle coming ∉ turns) :
    (service.after turns).read = service.read := by
  induction turns generalizing service with
  | nil => rfl
  | cons turn rest ih =>
    have hrest := ih (service.turn turn) fun coming hmem => h coming (List.mem_cons_of_mem _ hmem)
    cases turn with
    | incident => exact hrest
    | cycle coming => exact absurd (List.mem_cons_self ..) (h coming)

/-! ## Cycles into which nothing comes -/

theorem visit_alone (planners : List Planner) (applied : Applied) (agent : PolicyAgent) (taken : List Nat)
    (spent : Duration) (enforced : List RuleSet) : ∃ later,
    visit Underway.world planners ⟨applied, ⟨agent, [], taken⟩, spent, enforced⟩ =
      ((visit PolicyAgent.world planners ⟨applied, agent, spent, enforced⟩).1,
        { applied := (visit PolicyAgent.world planners ⟨applied, agent, spent, enforced⟩).2.applied
          state := ⟨(visit PolicyAgent.world planners ⟨applied, agent, spent, enforced⟩).2.state, [], later⟩
          spent := (visit PolicyAgent.world planners ⟨applied, agent, spent, enforced⟩).2.spent
          enforced := (visit PolicyAgent.world planners ⟨applied, agent, spent, enforced⟩).2.enforced }) := by
  induction planners generalizing applied agent taken spent enforced with
  | nil => exact ⟨taken, rfl⟩
  | cons planner rest ih =>
    simp only [visit, Underway.world, Underway.asked, PolicyAgent.world, meetAll, List.headD_nil, List.foldl_nil,
      List.tail_nil]
    split
    next => exact ih ..
    next =>
      cases henforce : enforce (planner.plan agent.logging) agent with
      | mk result after =>
        cases result with
        | error cause => exact ⟨_, rfl⟩
        | ok _ => exact ih ..

/-- An agent to which nothing comes during a cycle runs the cycle of a policy agent. -/
theorem Service.turn_alone (service : Service) :
    (service.outcome []).result = service.agent.cycle.1 ∧
      (service.turn (.cycle [])).agent = service.agent.cycle.2 := by
  obtain ⟨later, hvisit⟩ := visit_alone service.agent.planners service.agent.applied service.agent service.taken
    Duration.zero []
  constructor
  · simp only [Service.outcome, Cycle.run, hvisit, cycle]
  · simp only [Service.turn, Service.outcome, Cycle.run, hvisit, cycle, List.flatten_nil, meetAll, List.foldl_nil]
    rfl

end OverlayHost.PolicyAgent
