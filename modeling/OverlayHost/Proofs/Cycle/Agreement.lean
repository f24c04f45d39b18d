import OverlayHost.Planner
import OverlayHost.Proofs.Cycle.Visit
import OverlayHost.Proofs.Enforcer.Steps

/-!
# Whether the filter holds the plan

Poll cycles over a filter whose calls can fail, with planners that may answer anything for their own chains, and with
restarts. What a cycle remembers of a chain and what the filter holds for it are tied by the attempts at that chain
which got past the link: after the newest one ended well the filter holds its rules and nothing else is remembered,
but after it ended in an error of the cleanup the filter shows its rules while something else may be remembered.

So a cycle that ends without error leaves the plan in force for a chain if and only if the newest such attempt ended
well. `stale_plan_after_failed_cleanup` is a run where it did not: the plan goes back to what was remembered, and the
chain is passed over.
-/

set_option autoImplicit false

namespace OverlayHost.Cycle

open OverlayHost.Filter (Tables Kind Memory Host Call Reply Program)
open OverlayHost.Enforcer (Watched Journal Layout Clean Managed Enforced TenDigits view)

variable {chains : List Chain} {chain : Chain} {set : RuleSet} {tables later : Tables} {applied : Applied}

/-! ## Attempts -/

/-- An attempt at putting a rule set into force. -/
structure Attempt where
  set : RuleSet
  result : Except EnforceError Unit

variable {attempts : List Attempt} {result : Except EnforceError Unit}

/-- Whether the attempt got past the link. -/
def Attempt.linked (attempt : Attempt) : Bool :=
  match attempt.result with
  | .ok () | .error (.cleanup _) => true
  | .error _ => false

/-- The newest attempt at a chain that got past the link. Attempts are kept with the last one first. -/
def lastLinked (attempts : List Attempt) (chain : Chain) : Option Attempt :=
  attempts.find? fun attempt => attempt.set.chain = chain && attempt.linked

/-- Whether a filter holds a rule set: the parent jumps to one generation of the chain, with just these rules. -/
def Serves (tables : Tables) (set : RuleSet) : Prop :=
  ∃ generation, view tables set.chain = [(generation, some set.rules)]

/-- How what is remembered of a chain and what the filter shows of it depend on the newest attempt that got past the
link. -/
def Agrees (tables : Tables) (attempts : List Attempt) (applied : Applied) (chain : Chain) : Prop :=
  match lastLinked attempts chain with
  | none => applied.last? chain = none
  | some ⟨set, .ok ()⟩ => set.chain = chain ∧ Serves tables set ∧ ∀ kept, applied.last? chain = some kept → kept = set
  | some ⟨set, .error _⟩ => set.chain = chain ∧ applied.last? chain ≠ some set ∧
      ∃ generation older, view tables chain = (generation, some set.rules) :: older

theorem lastLinked_cons_of_ne (h : chain ≠ set.chain) :
    lastLinked (⟨set, result⟩ :: attempts) chain = lastLinked attempts chain := by
  have hne : ¬ set.chain = chain := fun heq => h heq.symm
  simp [lastLinked, hne]

theorem lastLinked_cons_of_linked (h : Attempt.linked ⟨set, result⟩ = true) :
    lastLinked (⟨set, result⟩ :: attempts) set.chain = some ⟨set, result⟩ := by
  simp [lastLinked, h]

theorem lastLinked_cons_of_not (h : Attempt.linked ⟨set, result⟩ = false) :
    lastLinked (⟨set, result⟩ :: attempts) chain = lastLinked attempts chain := by
  simp [lastLinked, h]

theorem Agrees.congr {others : List Attempt} {remembered : Applied} (h : Agrees tables attempts applied chain)
    (hattempts : lastLinked others chain = lastLinked attempts chain) (hview : view later chain = view tables chain)
    (hlast : remembered.last? chain = applied.last? chain) : Agrees later others remembered chain := by
  unfold Agrees at h ⊢
  rw [hattempts, hlast]
  split
  next hnone =>
    rw [hnone] at h
    exact h
  next set hsome =>
    rw [hsome] at h
    obtain ⟨rfl, ⟨generation, hserves⟩, hkept⟩ := h
    exact ⟨rfl, ⟨generation, by rw [hview, hserves]⟩, hkept⟩
  next set cause hsome =>
    rw [hsome] at h
    rw [hview]
    exact h

/-- Agreement does not need anything to be remembered. -/
theorem Agrees.forget (h : Agrees tables attempts applied chain) : Agrees tables attempts Applied.empty chain := by
  unfold Agrees at h ⊢
  have hempty : Applied.empty.last? chain = none := rfl
  rw [hempty]
  split
  next => rfl
  next set hsome =>
    rw [hsome] at h
    obtain ⟨hchain, hserves, -⟩ := h
    exact ⟨hchain, hserves, fun _ hkept => nomatch hkept⟩
  next set cause hsome =>
    rw [hsome] at h
    obtain ⟨hchain, -, hview⟩ := h
    exact ⟨hchain, (fun hkept => nomatch hkept), hview⟩

/-- A rule set that was put into force and is remembered agrees with the filter, and nothing else is disturbed. -/
theorem agrees_of_ok (h : ∀ chain ∈ chains, Agrees tables attempts applied chain)
    (henforced : Enforced chains set tables (.ok ()) later) :
    ∀ chain ∈ chains, Agrees later (⟨set, .ok ()⟩ :: attempts) (applied.record set) chain := by
  intro chain hchain
  by_cases heq : chain = set.chain
  · subst heq
    unfold Agrees
    rw [lastLinked_cons_of_linked rfl]
    refine ⟨rfl, henforced.own, ?_⟩
    intro kept hkept
    rw [Applied.last?_record_self] at hkept
    exact (Option.some.inj hkept).symm
  · exact (h chain hchain).congr (lastLinked_cons_of_ne heq) (henforced.others chain hchain heq)
      (Applied.last?_record_of_ne applied heq)

/-- A rule set that could not be put into force, and was not remembered before, still agrees with the filter. -/
theorem agrees_of_error {cause : EnforceError} (h : ∀ chain ∈ chains, Agrees tables attempts applied chain)
    (henforced : Enforced chains set tables (.error cause) later) (hchanged : applied.last? set.chain ≠ some set) :
    ∀ chain ∈ chains, Agrees later (⟨set, .error cause⟩ :: attempts) applied chain := by
  intro chain hchain
  by_cases heq : chain = set.chain
  · subst heq
    have hown := henforced.own
    cases cause with
    | cleanup cause =>
      unfold Agrees
      rw [lastLinked_cons_of_linked rfl]
      exact ⟨rfl, hchanged, hown⟩
    | _ => exact (h _ hchain).congr (lastLinked_cons_of_not rfl) hown rfl
  · exact (h chain hchain).congr (lastLinked_cons_of_ne heq) (henforced.others chain hchain heq) rfl

/-! ## Cycles over a filter whose calls can fail -/

/-- A filter, the attempts made on it, and what will go wrong. -/
structure Scene where
  filter : Watched
  attempts : List Attempt := []
  /-- For each coming call, the operations that are chosen to fail just before it. -/
  failures : List (List Kind) := []
  /-- What the clock will show. -/
  readings : List Nat := []

namespace Scene

/-- The scene as the host of a program that puts a rule set into force. -/
def host (set : RuleSet) : Host Scene where
  perform scene call :=
    let memory := (scene.failures.headD []).foldl Memory.failNext scene.filter.memory
    let (reply, filter) := { scene.filter with memory }.perform set call
    (reply, { scene with filter, failures := scene.failures.tail })
  now scene := (scene.readings.headD 0, { scene with readings := scene.readings.tail })

/-- Attempts to put a rule set into force. -/
def enforce (set : RuleSet) (scene : Scene) : Except EnforceError Unit × Scene :=
  let (result, after) := (Enforcer.enforce set).run (host set) scene
  (result, { after with attempts := ⟨set, result⟩ :: after.attempts })

/-- The scene as the world of a cycle whose planners, one for each chain, have given answers. -/
def world (answers : Chain → Except PlannerError RuleSet) : World Chain Scene where
  plan chain scene := (answers chain, scene)
  enforce := enforce
  now _ := Duration.zero

/-- What every attempt of the loop preserves holds at its end, however it ends: planners change nothing here. -/
theorem visit_invariant {answers : Chain → Except PlannerError RuleSet} (inv : Applied → Scene → Prop)
    (hok : ∀ chain ∈ chains, ∀ set, answers chain = .ok set → ∀ applied scene, inv applied scene →
      applied.last? set.chain ≠ some set → (enforce set scene).1 = .ok () →
      inv (applied.record set) (enforce set scene).2)
    (herror : ∀ chain ∈ chains, ∀ set, answers chain = .ok set → ∀ applied scene cause, inv applied scene →
      applied.last? set.chain ≠ some set → (enforce set scene).1 = .error cause → inv applied (enforce set scene).2)
    {progress : Progress Scene} (h : inv progress.applied progress.state) :
    inv (visit (world answers) chains progress).2.applied (visit (world answers) chains progress).2.state := by
  refine Cycle.visit_invariant inv ?_ ?_ ?_ h
  · intro chain _ applied state answer asked hstate hanswer
    obtain rfl : state = asked := congrArg Prod.snd hanswer
    exact hstate
  · intro chain hchain applied state wanted asked after hasked hanswer hchanged henforce
    have hafter := hok chain hchain wanted (congrArg Prod.fst hanswer) applied asked hasked hchanged
      (congrArg Prod.fst henforce)
    rw [show enforce wanted asked = (.ok (), after) from henforce] at hafter
    exact hafter
  · intro chain hchain applied state wanted asked cause after hasked hanswer hchanged henforce
    have hafter := herror chain hchain wanted (congrArg Prod.fst hanswer) applied asked cause hasked hchanged
      (congrArg Prod.fst henforce)
    rw [show enforce wanted asked = (.error cause, after) from henforce] at hafter
    exact hafter

theorem tables_failNext (kinds : List Kind) (memory : Memory) :
    (kinds.foldl Memory.failNext memory).tables = memory.tables := by
  induction kinds generalizing memory with
  | nil => rfl
  | cons kind rest ih => exact ih (memory.failNext kind)

/-- Only an attempt as a whole is entered, not the calls of which it is made. -/
theorem attempts_run {α : Type} (set : RuleSet) (program : Program α) (scene : Scene) :
    (program.run (host set) scene).2.attempts = scene.attempts := by
  induction program generalizing scene with
  | done result => rfl
  | call request next ih => exact ih _ _
  | clock next ih => exact ih _ _

theorem attempts_enforce (set : RuleSet) (scene : Scene) :
    (scene.enforce set).2.attempts = ⟨set, (scene.enforce set).1⟩ :: scene.attempts := by
  simp only [enforce, attempts_run]

theorem host_step (set : RuleSet) (scene : Scene) (call : Call) : Journal.Step set scene.filter.journal call
    ((host set).perform scene call).1 ((host set).perform scene call).2.filter.journal := by
  have hstep := { scene.filter with
    memory := (scene.failures.headD []).foldl Memory.failNext scene.filter.memory }.perform_step set call
  simp only [Watched.journal, tables_failNext] at hstep
  exact hstep

/-- An attempt ends in what the enforcer ensures, whichever calls are made to fail. -/
theorem enforce_of_ensures {inv : Journal → Prop} {post : Except EnforceError Unit → Journal → Prop} {scene : Scene}
    (h : (Enforcer.enforce set).Ensures (Journal.Step set) inv post scene.filter.journal) :
    post (scene.enforce set).1 (scene.enforce set).2.filter.journal := by
  refine (Program.Ensures.run (host set) (fun scene => scene.filter.journal) (fun _ => True) ?_ ?_ trivial h).1
  · intro state call _
    exact ⟨host_step set state call, trivial⟩
  · intro state _
    exact ⟨rfl, trivial⟩

/-- An attempt keeps the tables managed, as long as generations have ten digits, and shows in the parents what it came
to. -/
theorem enforce_spec (hlayout : Layout chains) (hset : set.chain ∈ chains) {scene : Scene}
    (h : TenDigits scene.filter.history → Managed chains scene.filter.journal) :
    (scene.enforce set).2.attempts = ⟨set, (scene.enforce set).1⟩ :: scene.attempts ∧
      (TenDigits (scene.enforce set).2.filter.history → TenDigits scene.filter.history ∧
        Managed chains (scene.enforce set).2.filter.journal ∧
        Enforced chains set scene.filter.memory.tables (scene.enforce set).1
          (scene.enforce set).2.filter.memory.tables) :=
  ⟨attempts_enforce set scene, enforce_of_ensures (Enforcer.enforce_ensures hlayout hset h)⟩

end Scene

/-! ## Runs of an agent -/

/-- An agent with one planner for each of some chains. -/
structure Agent where
  chains : List Chain
  scene : Scene
  applied : Applied := Applied.empty

/-- What happens to an agent. -/
inductive Turn where
  /-- A cycle is run. Its planners give answers, calls are chosen to fail, and the clock has readings to show. -/
  | cycle (answers : Chain → Except PlannerError RuleSet) (failures : List (List Kind)) (readings : List Nat)
  /-- The agent starts anew on the same filter. -/
  | restart

namespace Agent

/-- A new agent on a filter. -/
def start (chains : List Chain) (memory : Memory) : Agent where
  chains
  scene := { filter := { memory } }

/-- Runs a cycle. -/
def cycle (agent : Agent) (answers : Chain → Except PlannerError RuleSet) (failures : List (List Kind))
    (readings : List Nat) : Except CycleError Unit × Agent :=
  let outcome := Cycle.run (Scene.world answers) agent.chains agent.applied { agent.scene with failures, readings }
  (outcome.result, { agent with applied := outcome.applied, scene := outcome.state })

/-- Lets something happen. -/
def turn (agent : Agent) : Turn → Agent
  | .cycle answers failures readings => (agent.cycle answers failures readings).2
  | .restart => { agent with applied := Applied.empty }

/-- Lets things happen one after the other. -/
def after (agent : Agent) (turns : List Turn) : Agent := turns.foldl turn agent

end Agent

/-- Whether every planner answers for its own chain. -/
def OwnChain (chains : List Chain) (answers : Chain → Except PlannerError RuleSet) : Prop :=
  ∀ chain ∈ chains, ∀ set, answers chain = .ok set → set.chain = chain

/-- The tables are managed, and agree with what is remembered, as long as generations have ten digits. -/
def Sound (chains : List Chain) (applied : Applied) (scene : Scene) : Prop :=
  TenDigits scene.filter.history → Managed chains scene.filter.journal ∧
    ∀ chain ∈ chains, Agrees scene.filter.memory.tables scene.attempts applied chain

variable {scene : Scene} {agent : Agent} {answers : Chain → Except PlannerError RuleSet}
  {failures : List (List Kind)} {readings : List Nat}

/-- An attempt at a rule set that is not remembered, and remembering it if it succeeds, keeps a scene sound. -/
theorem sound_enforce (hlayout : Layout chains) (hset : set.chain ∈ chains) (h : Sound chains applied scene)
    (hchanged : applied.last? set.chain ≠ some set) :
    Sound chains (match (scene.enforce set).1 with | .ok () => applied.record set | .error _ => applied)
      (scene.enforce set).2 := by
  obtain ⟨hattempts, hspec⟩ := Scene.enforce_spec hlayout hset fun hdigits => (h hdigits).1
  intro hdigits
  obtain ⟨hbefore, hmanaged, henforced⟩ := hspec hdigits
  obtain ⟨-, hagrees⟩ := h hbefore
  refine ⟨hmanaged, ?_⟩
  rw [hattempts]
  cases hresult : (scene.enforce set).1 with
  | ok _ =>
    rw [hresult] at henforced
    exact agrees_of_ok hagrees henforced
  | error cause =>
    rw [hresult] at henforced
    exact agrees_of_error hagrees henforced hchanged

/-- The loop over the planners keeps a scene sound. -/
theorem sound_visit (hlayout : Layout chains) (hanswers : OwnChain chains answers) (progress : Progress Scene)
    (h : Sound chains progress.applied progress.state) :
    Sound chains (visit (Scene.world answers) chains progress).2.applied
      (visit (Scene.world answers) chains progress).2.state := by
  have hown {chain : Chain} (hchain : chain ∈ chains) {wanted : RuleSet} (hanswer : answers chain = .ok wanted) :
      wanted.chain ∈ chains := by
    rw [hanswers chain hchain wanted hanswer]
    exact hchain
  refine Scene.visit_invariant (Sound chains) ?_ ?_ h
  · intro chain hchain wanted hanswer applied scene hscene hchanged hresult
    have hsound := sound_enforce hlayout (hown hchain hanswer) hscene hchanged
    rw [hresult] at hsound
    exact hsound
  · intro chain hchain wanted hanswer applied scene cause hscene hchanged hresult
    have hsound := sound_enforce hlayout (hown hchain hanswer) hscene hchanged
    rw [hresult] at hsound
    exact hsound

theorem Agent.sound_cycle (hlayout : Layout agent.chains) (h : Sound agent.chains agent.applied agent.scene)
    (hanswers : OwnChain agent.chains answers) :
    Sound agent.chains (agent.cycle answers failures readings).2.applied
      (agent.cycle answers failures readings).2.scene := by
  exact sound_visit hlayout hanswers
    { applied := agent.applied, state := { agent.scene with failures, readings } } h

theorem Agent.sound_after (agent : Agent) (hlayout : Layout agent.chains)
    (h : Sound agent.chains agent.applied agent.scene) {turns : List Turn}
    (hanswers : ∀ answers failures readings, Turn.cycle answers failures readings ∈ turns →
      OwnChain agent.chains answers) :
    (agent.after turns).chains = agent.chains ∧
      Sound agent.chains (agent.after turns).applied (agent.after turns).scene := by
  induction turns generalizing agent with
  | nil => exact ⟨rfl, h⟩
  | cons next rest ih =>
    have hrest : ∀ answers failures readings, Turn.cycle answers failures readings ∈ rest →
        OwnChain agent.chains answers :=
      fun answers failures readings hturn => hanswers answers failures readings (List.mem_cons_of_mem _ hturn)
    cases next with
    | cycle answers failures readings =>
      have hown := hanswers answers failures readings (List.mem_cons_self ..)
      exact ih (agent.cycle answers failures readings).2 hlayout (agent.sound_cycle hlayout h hown) hrest
    | restart =>
      refine ih { agent with applied := Applied.empty } hlayout ?_ hrest
      intro hdigits
      obtain ⟨hmanaged, hagrees⟩ := h hdigits
      exact ⟨hmanaged, fun chain hchain => (hagrees chain hchain).forget⟩

/-- Where something else is remembered than what was put into force last, the filter does not hold it. -/
theorem Agrees.serves_iff (h : Agrees tables attempts applied chain) (hlast : applied.last? chain = some set) :
    Serves tables set ↔ ∃ attempt, lastLinked attempts chain = some attempt ∧ attempt.result = .ok () := by
  have hchain := Applied.chain_of_last? hlast
  unfold Agrees at h
  split at h
  next hnone =>
    rw [h] at hlast
    cases hlast
  next newest hnewest =>
    obtain ⟨-, hserves, hkept⟩ := h
    rw [hkept set hlast]
    exact ⟨fun _ => ⟨_, hnewest, rfl⟩, fun _ => hserves⟩
  next newest cause hnewest =>
    obtain ⟨hown, hother, generation, older, hview⟩ := h
    constructor
    · rintro ⟨shown, hserves⟩
      rw [hchain, hview] at hserves
      have hrules : newest.rules = set.rules := Option.some.inj (Prod.mk.inj (List.cons.inj hserves).1).2
      have hsame : newest = set := by
        cases newest
        cases set
        simp_all
      rw [hsame] at hother
      exact absurd hlast hother
    · rintro ⟨attempt, hattempt, hresult⟩
      rw [hnewest] at hattempt
      obtain rfl := Option.some.inj hattempt
      cases hresult

/-- After a cycle that ended without error the filter holds what the planner of a chain answered if and only if the
newest attempt at the chain that got past the link ended well. -/
theorem serves_iff_of_cycle_ok {memory : Memory} (hlayout : Layout chains) (hnodup : chains.Nodup)
    (hclean : Clean chains memory.tables) {turns : List Turn}
    (hturns : ∀ answers failures readings, Turn.cycle answers failures readings ∈ turns → OwnChain chains answers)
    (hanswers : OwnChain chains answers)
    (hdigits : TenDigits (((Agent.start chains memory).after turns).cycle answers failures
      readings).2.scene.filter.history)
    (hok : (((Agent.start chains memory).after turns).cycle answers failures readings).1 = .ok ()) :
    ∀ chain ∈ chains, ∃ set, answers chain = .ok set ∧
      (Serves (((Agent.start chains memory).after turns).cycle answers failures
          readings).2.scene.filter.memory.tables set ↔
        ∃ attempt, lastLinked (((Agent.start chains memory).after turns).cycle answers failures
          readings).2.scene.attempts chain = some attempt ∧ attempt.result = .ok ()) := by
  have hstart : Sound chains (Agent.start chains memory).applied (Agent.start chains memory).scene :=
    fun _ => ⟨hclean.managed, fun _ _ => rfl⟩
  obtain ⟨hchains, hsound⟩ := (Agent.start chains memory).sound_after hlayout hstart hturns
  generalize (Agent.start chains memory).after turns = agent at hchains hsound hdigits hok ⊢
  obtain rfl : agent.chains = chains := hchains
  obtain ⟨-, hagrees⟩ := agent.sound_cycle hlayout hsound hanswers hdigits
  intro chain hchain
  obtain ⟨state, set, asked, hanswer, hlast⟩ := last?_of_visit_ok id
    (fun chain hchain state set asked hanswer => hanswers chain hchain set (congrArg Prod.fst hanswer))
    (by rw [List.map_id]; exact hnodup) hok chain hchain
  exact ⟨set, congrArg Prod.fst hanswer, (hagrees chain hchain).serves_iff hlast⟩

/-! ## A plan that goes back -/

/-- The rules for remote traffic in a builtin chain, with or without a log. -/
def remotePlan (logging : Bool) : RuleSet := (Planner.remoteTraffic ⟨"filter", "FORWARD", "p-"⟩ 1).plan logging

/-- The last of three cycles: the first puts the rules without a log into force, the second those with a log but fails
to take out the old link, and the last one asks for either. -/
def afterFailedCleanup (logging : Bool) : Except CycleError Unit × Agent :=
  ((Agent.start [⟨"filter", "FORWARD", "p-"⟩] Memory.initial).after
    [.cycle (fun _ => .ok (remotePlan false)) [] [1700000000],
      .cycle (fun _ => .ok (remotePlan true)) [[.delete]] [1700000001]]).cycle
    (fun _ => .ok (remotePlan logging)) [] [1700000002]

/-- If the planner keeps to the rules that could not be cleaned up after, the next cycle retries them, and the filter
holds them then if the retry ended well. -/
theorem serves_iff_after_failed_cleanup :
    Layout [⟨"filter", "FORWARD", "p-"⟩] ∧ Clean [⟨"filter", "FORWARD", "p-"⟩] Memory.initial.tables ∧
      (afterFailedCleanup true).1 = .ok () ∧
      ∀ chain ∈ [(⟨"filter", "FORWARD", "p-"⟩ : Chain)], ∃ set,
        (.ok (remotePlan true) : Except PlannerError RuleSet) = .ok set ∧
        (Serves (afterFailedCleanup true).2.scene.filter.memory.tables set ↔
          ∃ attempt, lastLinked (afterFailedCleanup true).2.scene.attempts chain = some attempt ∧
            attempt.result = .ok ()) := by
  have hlayout : Layout [⟨"filter", "FORWARD", "p-"⟩] := ⟨by decide, by decide⟩
  have hclean : Clean [⟨"filter", "FORWARD", "p-"⟩] Tables.initial := Enforcer.clean_initial (by decide)
  have hown (logging : Bool) : OwnChain [⟨"filter", "FORWARD", "p-"⟩] fun _ => .ok (remotePlan logging) := by
    intro chain hchain set hset
    obtain rfl := Except.ok.inj hset
    exact (List.mem_singleton.mp hchain).symm
  have hok : (afterFailedCleanup true).1 = .ok () := by decide
  refine ⟨hlayout, hclean, hok, serves_iff_of_cycle_ok hlayout (List.nodup_singleton _) hclean ?_ (hown true)
    (Enforcer.tenDigits_of_names (by decide)) hok⟩
  intro answers failures readings hturn
  simp only [List.mem_cons, List.not_mem_nil, or_false, Turn.cycle.injEq] at hturn
  rcases hturn with ⟨rfl, -⟩ | ⟨rfl, -⟩
  · exact hown false
  · exact hown true

/-- If the planner goes back to what is remembered instead, the cycle passes the chain over and ends without error,
but the filter goes on to hold the rules that could not be cleaned up after, above those that were asked for. -/
theorem stale_plan_after_failed_cleanup :
    (afterFailedCleanup false).1 = .ok () ∧
      ¬ Serves (afterFailedCleanup false).2.scene.filter.memory.tables (remotePlan false) := by
  refine ⟨by decide, ?_⟩
  rintro ⟨generation, hserves⟩
  have hlinks : (view (afterFailedCleanup false).2.scene.filter.memory.tables (remotePlan false).chain).map Prod.fst =
      [1700000001, 1700000000] := by
    decide
  rw [hserves] at hlinks
  cases hlinks

end OverlayHost.Cycle
