import OverlayHost.Proofs.Cycle.Agreement

/-!
# After a restart

An agent that starts anew remembers nothing, so whatever it remembers later was put into force since. By the time a
cycle ends without error every planner's answer has been put into force since the restart, in that cycle or in an
earlier one that failed further on, and the filter holds it unless the newest attempt to get past the link ended in an
error of the cleanup. What the filter held before the restart plays no part.

`partial_recovery_after_restart` is a run whose first cycle to end without error passes a planner over, since an
earlier cycle has enforced its answer already, although another rule set of that planner has been linked in between.
-/

set_option autoImplicit false

namespace OverlayHost.Cycle

open OverlayHost.Filter (Tables Kind Memory)
open OverlayHost.Enforcer (Layout Clean TenDigits view)

variable {chains : List Chain} {chain : Chain} {set : RuleSet} {applied : Applied} {scene : Scene} {agent : Agent}
  {old : List Attempt} {answers : Chain → Except PlannerError RuleSet} {failures : List (List Kind)}
  {readings : List Nat}

/-! ## What was put into force since -/

/-- Whether all that is remembered was put into force after some old attempts. -/
def Backed (old : List Attempt) (applied : Applied) (scene : Scene) : Prop :=
  ∃ recent, scene.attempts = recent ++ old ∧
    ∀ chain set, applied.last? chain = some set → (⟨set, .ok ()⟩ : Attempt) ∈ recent

theorem backed_empty (scene : Scene) : Backed scene.attempts Applied.empty scene :=
  ⟨[], rfl, fun _ _ hlast => nomatch hlast⟩

theorem Backed.enforce_ok (h : Backed old applied scene) (hok : (scene.enforce set).1 = .ok ()) :
    Backed old (applied.record set) (scene.enforce set).2 := by
  obtain ⟨recent, hattempts, hbacked⟩ := h
  refine ⟨⟨set, .ok ()⟩ :: recent, ?_, ?_⟩
  · rw [Scene.attempts_enforce, hok, hattempts, List.cons_append]
  · intro chain kept hkept
    by_cases heq : chain = set.chain
    · rw [heq, Applied.last?_record_self] at hkept
      rw [Option.some.inj hkept]
      exact List.mem_cons_self ..
    · rw [Applied.last?_record_of_ne applied heq] at hkept
      exact List.mem_cons_of_mem _ (hbacked chain kept hkept)

theorem Backed.enforce_error (h : Backed old applied scene) (set : RuleSet) :
    Backed old applied (scene.enforce set).2 := by
  obtain ⟨recent, hattempts, hbacked⟩ := h
  refine ⟨⟨set, (scene.enforce set).1⟩ :: recent, ?_, ?_⟩
  · rw [Scene.attempts_enforce, hattempts, List.cons_append]
  · intro chain kept hkept
    exact List.mem_cons_of_mem _ (hbacked chain kept hkept)

theorem backed_visit (progress : Progress Scene) (h : Backed old progress.applied progress.state) :
    Backed old (visit (Scene.world answers) chains progress).2.applied
      (visit (Scene.world answers) chains progress).2.state := by
  refine Scene.visit_invariant (Backed old) ?_ ?_ h
  · intro chain _ wanted _ applied scene hscene _ hresult
    exact hscene.enforce_ok hresult
  · intro chain _ wanted _ applied scene cause hscene _ _
    exact hscene.enforce_error wanted

theorem Agent.backed_cycle (agent : Agent) (answers : Chain → Except PlannerError RuleSet) (failures : List (List Kind))
    (readings : List Nat) (h : Backed old agent.applied agent.scene) :
    Backed old (agent.cycle answers failures readings).2.applied (agent.cycle answers failures readings).2.scene :=
  backed_visit { applied := agent.applied, state := { agent.scene with failures, readings } } h

/-- However things go on, what is remembered was put into force since. -/
theorem Agent.backed_after (agent : Agent) (turns : List Turn) (h : Backed old agent.applied agent.scene) :
    Backed old (agent.after turns).applied (agent.after turns).scene := by
  induction turns generalizing agent with
  | nil => exact h
  | cons next rest ih =>
    cases next with
    | cycle answers failures readings => exact ih _ (agent.backed_cycle answers failures readings h)
    | restart =>
      -- forgetting leaves less to be backed
      obtain ⟨recent, hattempts, -⟩ := h
      exact ih { agent with applied := Applied.empty } ⟨recent, hattempts, fun _ _ hlast => nomatch hlast⟩

/-- A chain that was put into force by some attempt has a newest attempt that got past the link, and attempts before
those at hand do not matter for it. -/
theorem exists_lastLinked {recent : List Attempt} (h : (⟨set, .ok ()⟩ : Attempt) ∈ recent) (old : List Attempt) :
    ∃ newest, lastLinked recent set.chain = some newest ∧ lastLinked (recent ++ old) set.chain = some newest := by
  obtain ⟨newest, hnewest⟩ : ∃ newest, lastLinked recent set.chain = some newest := by
    rw [← Option.isSome_iff_exists, lastLinked, List.find?_isSome]
    exact ⟨_, h, by simp [Attempt.linked]⟩
  refine ⟨newest, hnewest, ?_⟩
  unfold lastLinked at hnewest ⊢
  rw [List.find?_append, hnewest, Option.some_or]

theorem Agent.after_restart (agent : Agent) (before since : List Turn) :
    agent.after (before ++ .restart :: since) =
      Agent.after { agent.after before with applied := Applied.empty } since := by
  rw [Agent.after, List.foldl_append, List.foldl_cons]
  rfl

/-- By the time a cycle after a restart ends without error, every planner's answer has been put into force since the
restart, and if the newest attempt at the chain to get past the link since then ended well, the filter holds it. -/
theorem restored_of_cycle_ok {memory : Memory} (hlayout : Layout chains) (hnodup : chains.Nodup)
    (hclean : Clean chains memory.tables) {before since : List Turn}
    (hturns : ∀ answers failures readings, Turn.cycle answers failures readings ∈ before ++ .restart :: since →
      OwnChain chains answers)
    (hanswers : OwnChain chains answers) {last : Agent}
    (hcycle : ((Agent.start chains memory).after (before ++ .restart :: since)).cycle answers failures readings =
      (.ok (), last))
    (hdigits : TenDigits last.scene.filter.history) :
    ∃ recent, last.scene.attempts = recent ++ ((Agent.start chains memory).after before).scene.attempts ∧
      ∀ chain ∈ chains, ∃ set newest, answers chain = .ok set ∧ (⟨set, .ok ()⟩ : Attempt) ∈ recent ∧
        lastLinked recent chain = some newest ∧
        (newest.result = .ok () → Serves last.scene.filter.memory.tables set) := by
  have hstart : Sound chains (Agent.start chains memory).applied (Agent.start chains memory).scene :=
    fun _ => ⟨hclean.managed, fun _ _ => rfl⟩
  obtain ⟨hchains, hsound⟩ := (Agent.start chains memory).sound_after hlayout hstart hturns
  have hbacked := Agent.backed_after { (Agent.start chains memory).after before with applied := Applied.empty } since
    (backed_empty ((Agent.start chains memory).after before).scene)
  rw [← Agent.after_restart] at hbacked
  generalize (Agent.start chains memory).after (before ++ .restart :: since) = agent at hchains hsound hbacked hcycle
  obtain rfl : agent.chains = chains := hchains
  have hok : (agent.cycle answers failures readings).1 = .ok () := congrArg Prod.fst hcycle
  obtain rfl : (agent.cycle answers failures readings).2 = last := congrArg Prod.snd hcycle
  obtain ⟨-, hagrees⟩ := agent.sound_cycle hlayout hsound hanswers hdigits
  obtain ⟨recent, hattempts, hrecent⟩ := agent.backed_cycle answers failures readings hbacked
  refine ⟨recent, hattempts, ?_⟩
  intro chain hchain
  obtain ⟨state, set, asked, hanswer, hlast⟩ := last?_of_visit_ok id
    (fun chain hchain state set asked hanswer => hanswers chain hchain set (congrArg Prod.fst hanswer))
    (by rw [List.map_id]; exact hnodup) hok chain hchain
  have hput := hrecent chain set hlast
  obtain ⟨newest, hnewest, hwhole⟩ := exists_lastLinked hput
    ((Agent.start agent.chains memory).after before).scene.attempts
  rw [Applied.chain_of_last? hlast, id] at hnewest hwhole
  refine ⟨set, newest, congrArg Prod.fst hanswer, hput, hnewest, fun hresult => ?_⟩
  rw [← hattempts] at hwhole
  exact ((hagrees chain hchain).serves_iff hlast).mpr ⟨newest, hwhole, hresult⟩

/-! ## A recovery in several cycles -/

/-- The chains of two planners with one parent. -/
def pairChains : List Chain := [⟨"filter", "FORWARD", "p-"⟩, ⟨"filter", "FORWARD", "q-"⟩]

/-- The rules for remote traffic in the first chain, and none in the second. -/
def pairPlan (logging : Bool) (chain : Chain) : Except PlannerError RuleSet :=
  if chain.stem = "p-" then .ok (remotePlan logging) else .ok ⟨⟨"filter", "FORWARD", "q-"⟩, []⟩

/-- What happens up to a restart and some of what happens after it: the parent cannot be listed for the second chain,
then the first one is given another rule set, whose cleanup fails. -/
def pairTurns (count : Nat) : List Turn :=
  [.cycle (pairPlan false) [] [1700000000, 1700000000]] ++ .restart ::
    -- the first call of the cycle lists the parent for the first chain, so that the failure waits for the second one
    [Turn.cycle (pairPlan false) [[], [.list]] [1700000001],
      Turn.cycle (pairPlan true) [[.delete]] [1700000002]].take count

theorem ownChain_pairPlan (logging : Bool) : OwnChain pairChains (pairPlan logging) := by
  intro chain hchain set hset
  simp only [pairChains, List.mem_cons, List.not_mem_nil, or_false] at hchain
  rcases hchain with rfl | rfl
  · obtain rfl := Except.ok.inj hset
    rfl
  · obtain rfl := Except.ok.inj hset
    rfl

theorem ownChain_pairTurns (count : Nat) {answers : Chain → Except PlannerError RuleSet} {failures : List (List Kind)}
    {readings : List Nat} (h : Turn.cycle answers failures readings ∈ pairTurns count) :
    OwnChain pairChains answers := by
  rw [pairTurns, List.mem_append, List.mem_singleton, List.mem_cons] at h
  rcases h with hfirst | hrestart | hsince
  · obtain ⟨rfl, -, -⟩ := Turn.cycle.inj hfirst
    exact ownChain_pairPlan false
  · cases hrestart
  · have hmem := List.mem_of_mem_take hsince
    simp only [List.mem_cons, List.not_mem_nil, or_false, Turn.cycle.injEq] at hmem
    rcases hmem with ⟨rfl, -⟩ | ⟨rfl, -⟩
    all_goals exact ownChain_pairPlan _

/-- The two chains can be told apart, and a new filter is clean for them. -/
theorem pairChains_clean : Layout pairChains ∧ pairChains.Nodup ∧ Clean pairChains Memory.initial.tables :=
  ⟨⟨by decide, by decide⟩, by decide, Enforcer.clean_initial (by decide)⟩

/-- An agent to which all of it happened, and a last cycle. -/
def pairCycle (logging : Bool) : Except CycleError Unit × Agent :=
  ((Agent.start pairChains Memory.initial).after (pairTurns 2)).cycle (pairPlan logging) [] [1700000003, 1700000003]

/-- If the first planner keeps to the rule set whose cleanup failed, it is enforced again, and the filter holds it. -/
theorem restored_after_failed_cleanup :
    Layout pairChains ∧ pairChains.Nodup ∧ Clean pairChains Memory.initial.tables ∧ (pairCycle true).1 = .ok () ∧
      ∃ recent, (pairCycle true).2.scene.attempts = recent ++
          ((Agent.start pairChains Memory.initial).after
            [.cycle (pairPlan false) [] [1700000000, 1700000000]]).scene.attempts ∧
        ∀ chain ∈ pairChains, ∃ set newest, pairPlan true chain = .ok set ∧ (⟨set, .ok ()⟩ : Attempt) ∈ recent ∧
          lastLinked recent chain = some newest ∧
          (newest.result = .ok () → Serves (pairCycle true).2.scene.filter.memory.tables set) := by
  obtain ⟨hlayout, hnodup, hclean⟩ := pairChains_clean
  have hok : (pairCycle true).1 = .ok () := by decide
  exact ⟨hlayout, hnodup, hclean, hok, restored_of_cycle_ok hlayout hnodup hclean
    (fun _ _ _ hturn => ownChain_pairTurns 2 hturn) (ownChain_pairPlan true) (Prod.ext hok rfl)
    (Enforcer.tenDigits_of_names (by decide))⟩

/-- If it goes back instead, the first cycle since the restart to end without error enforces the second planner's
answer alone, and the parent goes on to jump to two generations of the first planner's chain, of which the topmost
holds other rules than it asks for. -/
theorem partial_recovery_after_restart :
    (Layout pairChains ∧ pairChains.Nodup ∧ Clean pairChains Memory.initial.tables) ∧
      (((Agent.start pairChains Memory.initial).after (pairTurns 0)).cycle (pairPlan false) [[], [.list]]
        [1700000001]).1.isOk = false ∧
      (((Agent.start pairChains Memory.initial).after (pairTurns 1)).cycle (pairPlan true) [[.delete]]
        [1700000002]).1.isOk = false ∧
      (pairCycle false).1 = .ok () ∧ TenDigits (pairCycle false).2.scene.filter.history ∧
      ((pairCycle false).2.scene.attempts.map Attempt.set =
        ⟨⟨"filter", "FORWARD", "q-"⟩, []⟩ ::
          ((Agent.start pairChains Memory.initial).after (pairTurns 2)).scene.attempts.map Attempt.set) ∧
      ¬ Serves (pairCycle false).2.scene.filter.memory.tables (remotePlan false) := by
  refine ⟨pairChains_clean, by decide, by decide, by decide,
    Enforcer.tenDigits_of_names (by decide), by decide, ?_⟩
  rintro ⟨generation, hserves⟩
  have hlinks : (view (pairCycle false).2.scene.filter.memory.tables (remotePlan false).chain).map Prod.fst =
      [1700000002, 1700000001] := by
    decide
  rw [hserves] at hlinks
  cases hlinks

end OverlayHost.Cycle
