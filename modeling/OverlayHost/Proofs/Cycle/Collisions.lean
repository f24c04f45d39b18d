import OverlayHost.Config.Basic
import OverlayHost.Proofs.Cycle.Leftovers
import OverlayHost.Proofs.Enforcer.Census
import OverlayHost.Proofs.Enforcer.Discipline

/-!
# Names that are taken

Rule sets for any chains, put into force one after the other on a filter in memory, with any calls made to fail and any
readings of the clock. The fresh generation is newer than all that the parent links, but names are those of a whole
table. So an attempt of which no call is made to fail can meet a name that is taken. It does so in two cases only: that
generation is linked where it is not looked for, as by a chain of the same stem under another parent, or it was to be
removed, and that failed. `createChain_iff_linkedElsewhere_or_abandoned` says that it does so in just these cases.

`collision_of_shared_stem` is a run of the first kind, with chains that a valid configuration may have.
-/

set_option autoImplicit false

namespace OverlayHost.Cycle

open OverlayHost.Filter (Tables Kind Memory Call Program Reply Host)
open OverlayHost.Enforcer (Journal Layout TenDigits Surveyed LinkedElsewhere Abandoned nextIn)

variable {chains : List Chain} {set : RuleSet} {scene : Scene}

namespace Scene

/-- Whether no call that was made between two scenes was made to fail. -/
def Quiet (before last : Scene) : Prop :=
  ∃ calls, last.filter.history = calls ++ before.filter.history ∧
    ∀ entry ∈ calls, ∀ kind, entry.reply ≠ .error (Tables.Refusal.injected kind).toError

theorem history_perform (set : RuleSet) (scene : Scene) (call : Call) :
    ((host set).perform scene call).2.filter.history =
      ⟨set, call, ((host set).perform scene call).1⟩ :: scene.filter.history :=
  rfl

theorem history_run {α : Type} (set : RuleSet) (program : Program α) (scene : Scene) :
    ∃ calls, (program.run (host set) scene).2.filter.history = calls ++ scene.filter.history := by
  induction program generalizing scene with
  | done result => exact ⟨[], rfl⟩
  | call request next ih =>
    obtain ⟨calls, hcalls⟩ := ih _ ((host set).perform scene request).2
    refine ⟨calls ++ [⟨set, request, ((host set).perform scene request).1⟩], ?_⟩
    rw [List.append_assoc, List.singleton_append, ← history_perform]
    exact hcalls
  | clock next ih => exact ih _ ((host set).now scene).2

theorem mem_history_of_call {α : Type} (set : RuleSet) (request : Call) (next : Reply → Program α) (scene : Scene) :
    ⟨set, request, ((host set).perform scene request).1⟩ ∈
      ((Program.call request next).run (host set) scene).2.filter.history := by
  obtain ⟨calls, hcalls⟩ := history_run set (next ((host set).perform scene request).1)
    ((host set).perform scene request).2
  have hrun : ((Program.call request next).run (host set) scene).2.filter.history =
      calls ++ ⟨set, request, ((host set).perform scene request).1⟩ :: scene.filter.history := hcalls
  rw [hrun]
  exact List.mem_append_right calls (List.mem_cons_self ..)

/-- Neither the first call of a quiet run is made to fail nor any of the rest. -/
theorem Quiet.of_call {α : Type} {request : Call} {next : Reply → Program α}
    (h : Quiet scene ((Program.call request next).run (host set) scene).2) :
    (∀ kind, ((host set).perform scene request).1 ≠ .error (Tables.Refusal.injected kind).toError) ∧
      Quiet ((host set).perform scene request).2
        ((next ((host set).perform scene request).1).run (host set) ((host set).perform scene request).2).2 := by
  obtain ⟨calls, hcalls, hquiet⟩ := h
  obtain ⟨later, hlater⟩ := history_run set (next ((host set).perform scene request).1)
    ((host set).perform scene request).2
  -- a history has the newest call first, so this one is the last of those that were made
  have hsplit : calls = later ++ [⟨set, request, ((host set).perform scene request).1⟩] := by
    apply List.append_cancel_right
    rw [← hcalls, List.append_assoc, List.singleton_append, ← history_perform]
    exact hlater
  rw [hsplit] at hquiet
  refine ⟨hquiet _ (List.mem_append_right later (List.mem_singleton_self _)), later, hlater, ?_⟩
  intro entry hentry
  exact hquiet entry (List.mem_append_left _ hentry)

theorem Quiet.tenDigits {before last : Scene} (h : Quiet before last) (hdigits : TenDigits last.filter.history) :
    TenDigits before.filter.history := by
  obtain ⟨calls, hcalls, -⟩ := h
  intro entry hentry
  apply hdigits entry
  rw [hcalls]
  exact List.mem_append_right calls hentry

/-- Nothing is made to fail if nothing is pending and no failures are chosen. -/
theorem quiet_run {α : Type} (set : RuleSet) (program : Program α) (hpending : scene.filter.memory.pending = [])
    (hfailures : scene.failures = []) : Quiet scene (program.run (host set) scene).2 := by
  induction program generalizing scene with
  | done result => exact ⟨[], rfl, by simp⟩
  | clock next ih => exact ih _ hpending hfailures
  | call request next ih =>
    have hreply : ((host set).perform scene request).1 = (scene.filter.memory.perform request).1 := by
      simp [host, hfailures, Enforcer.Watched.perform]
    have hmemory : ((host set).perform scene request).2.filter.memory = (scene.filter.memory.perform request).2 := by
      simp [host, hfailures, Enforcer.Watched.perform]
    have hafter : ((host set).perform scene request).2.failures = [] := by
      simp [host, hfailures]
    have hcalm : ((host set).perform scene request).2.filter.memory.pending = [] := by
      rw [hmemory, List.eq_nil_iff_forall_not_mem]
      intro kind hkind
      have hbefore := scene.filter.memory.pending_perform_subset request kind hkind
      rw [hpending] at hbefore
      cases hbefore
    obtain ⟨calls, hcalls, hquiet⟩ := ih ((host set).perform scene request).1 hcalm hafter
    refine ⟨calls ++ [⟨set, request, ((host set).perform scene request).1⟩], ?_, ?_⟩
    · rw [List.append_assoc, List.singleton_append, ← history_perform]
      exact hcalls
    · intro entry hentry kind
      rcases List.mem_append.mp hentry with hentry | hentry
      · exact hquiet entry hentry kind
      · rw [List.mem_singleton.mp hentry, hreply]
        intro hinjected
        have hchosen := ((scene.filter.memory.perform_answers request).of_injected hinjected).2
        rw [hpending] at hchosen
        cases hchosen

theorem quiet_enforce (hpending : scene.filter.memory.pending = []) (hfailures : scene.failures = []) :
    Quiet scene (scene.enforce set).2 :=
  quiet_run set (Enforcer.enforce set) hpending hfailures

/-- A call that is not made to fail is refused by the tables or carried out. -/
theorem answer_of_quiet {before after : Journal} {call : Call} {reply : Reply}
    (h : Journal.Step set before call reply after)
    (hquiet : ∀ kind, reply ≠ .error (Tables.Refusal.injected kind).toError) :
    (∃ refusal, before.tables.apply call = .error refusal ∧ reply = .error refusal.toError) ∨
      ∃ lines, before.tables.apply call = .ok (lines, after.tables) ∧ reply = .ok lines := by
  have hanswer := h.1
  generalize after.tables = tables at hanswer ⊢
  cases hanswer with
  | injected _ => exact absurd rfl (hquiet call.operation.kind)
  | refused hrefused => exact .inl ⟨_, hrefused, rfl⟩
  | done hdone => exact .inr ⟨_, hdone, rfl⟩

/-- Replacing generations without failures ends in the error for a chain that cannot be added if and only if the chain
exists. -/
theorem createChain_iff_of_replace {found : List Nat} {now : Nat}
    (hquiet : Quiet scene ((Enforcer.replace set found now).run (host set) scene).2) :
    (∃ cause, ((Enforcer.replace set found now).run (host set) scene).1 = .error (.createChain cause)) ↔
      scene.filter.memory.tables.hasChain (set.chain.generationId (Generation.next found now)) = true := by
  rw [Enforcer.createChain_iff]
  rcases answer_of_quiet (host_step set scene (Enforcer.creation set (Generation.next found now))) hquiet.of_call.1 with
    ⟨refusal, hrefused, hreply⟩ | ⟨lines, hdone, hreply⟩
  · refine iff_of_true ⟨_, hreply⟩ ?_
    -- tables refuse to add a chain only if there is one of that name
    by_contra hnone
    rw [Tables.hasChain, Bool.not_eq_true, Option.isSome_eq_false_iff, Option.isNone_iff_eq_none] at hnone
    have hcreated : scene.filter.journal.tables.apply (Enforcer.creation set (Generation.next found now)) = .ok ([], _) :=
      Tables.apply_newChain_eq_ok.mpr ⟨hnone, rfl, rfl⟩
    rw [hrefused] at hcreated
    cases hcreated
  · refine iff_of_false ?_ ?_
    · rintro ⟨cause, hcause⟩
      rw [hreply] at hcause
      cases hcause
    · obtain ⟨hnone, -, -⟩ := Tables.apply_newChain_eq_ok.mp hdone
      rw [Tables.hasChain, show scene.filter.memory.tables.rules? _ = none from hnone]
      exact Bool.noConfusion

/-- An attempt of which no call is made to fail lists the parent, if it is there, reads the clock, and goes on to replace
the generations that are found. -/
theorem enforce_of_quiet (hparent : scene.filter.memory.tables.hasChain set.chain.parentId = true)
    (hquiet : Quiet scene (scene.enforce set).2) :
    ∃ listed : Scene, listed.filter.memory.tables = scene.filter.memory.tables ∧
      let replaced := (Enforcer.replace set (Enforcer.foundIn scene.filter.memory.tables set.chain)
        (scene.readings.headD 0)).run (host set) listed
      (scene.enforce set).1 = replaced.1 ∧ (scene.enforce set).2.filter = replaced.2.filter ∧
        Quiet listed replaced.2 := by
  obtain ⟨rules, hrules⟩ := Tables.hasChain_iff.mp hparent
  have hlist : scene.filter.journal.tables.apply ⟨set.chain.parentId, .list⟩ =
      .ok (Tables.listing set.chain.parent rules, scene.filter.memory.tables) :=
    Tables.apply_list_eq_ok.mpr ⟨rules, hrules, rfl, rfl⟩
  have hfound : Generation.inListing set.chain.stem (Tables.listing set.chain.parent rules) =
      Enforcer.foundIn scene.filter.memory.tables set.chain := by
    rw [Enforcer.foundIn, Enforcer.rulesOf_of_rules? hrules]
  have hrun : Quiet scene ((Enforcer.enforce set).run (host set) scene).2 := hquiet
  rw [Enforcer.enforce_eq] at hrun
  obtain ⟨hanswer, hlisted⟩ := hrun.of_call
  rcases answer_of_quiet (host_step set scene ⟨set.chain.parentId, .list⟩) hanswer with
    ⟨refusal, hrefused, -⟩ | ⟨lines, hdone, hreply⟩
  · rw [hlist] at hrefused
    cases hrefused
  · rw [hlist] at hdone
    obtain ⟨rfl, htables⟩ := Prod.mk.inj (Except.ok.inj hdone)
    have hreplace := Enforcer.run_enforce (host set) set scene hreply
    rw [hreply] at hlisted
    dsimp only at hlisted
    rw [hfound] at hreplace hlisted
    have hresult := congrArg Prod.fst hreplace
    have hfilter := congrArg (fun run => run.2.filter) hreplace
    exact ⟨((host set).now ((host set).perform scene ⟨set.chain.parentId, .list⟩).2).2, htables.symm, hresult, hfilter,
      hlisted⟩

theorem next_lt_limit_of_quiet (hparent : scene.filter.memory.tables.hasChain set.chain.parentId = true)
    (hquiet : Quiet scene (scene.enforce set).2) (hdigits : TenDigits (scene.enforce set).2.filter.history) :
    nextIn scene.filter.memory.tables set.chain (scene.readings.headD 0) < Generation.limit := by
  obtain ⟨listed, -, -, hfilter, -⟩ := enforce_of_quiet hparent hquiet
  rw [Enforcer.replace_eq] at hfilter
  rw [hfilter] at hdigits
  exact hdigits _ (mem_history_of_call ..) _ rfl

/-- On surveyed tables an attempt of which no call is made to fail ends in the error for a chain that cannot be added if
and only if the name that comes next is linked elsewhere or was to be removed. -/
theorem createChain_iff_of_surveyed (h : Surveyed chains [] scene.filter.journal) (hset : set.chain ∈ chains)
    (hquiet : Quiet scene (scene.enforce set).2) (hdigits : TenDigits (scene.enforce set).2.filter.history) :
    (∃ cause, (scene.enforce set).1 = .error (.createChain cause)) ↔
      LinkedElsewhere chains scene.filter.memory.tables set.chain
          (nextIn scene.filter.memory.tables set.chain (scene.readings.headD 0)) ∨
        Abandoned scene.filter.history
          (set.chain.generationId (nextIn scene.filter.memory.tables set.chain (scene.readings.headD 0))) := by
  have hparent : scene.filter.memory.tables.hasChain set.chain.parentId = true := h.parents set.chain hset
  have hlimit := next_lt_limit_of_quiet hparent hquiet hdigits
  obtain ⟨listed, htables, hresult, -, hreplaced⟩ := enforce_of_quiet hparent hquiet
  rw [hresult, createChain_iff_of_replace hreplaced, htables]
  exact h.hasChain_next_iff hset hlimit

theorem surveyed_enforceAll {sets : List RuleSet} (hsets : ∀ set ∈ sets, set.chain ∈ chains)
    (h : TenDigits scene.filter.history → Surveyed chains [] scene.filter.journal) :
    TenDigits (scene.enforceAll sets).filter.history → Surveyed chains [] (scene.enforceAll sets).filter.journal := by
  induction sets generalizing scene with
  | nil => exact h
  | cons set rest ih =>
    obtain ⟨hset, hrest⟩ := List.forall_mem_cons.mp hsets
    exact ih hrest (enforce_of_ensures (Enforcer.enforce_surveyed hset h))

/-- Any attempts on a filter that holds the parents and no generation leave surveyed tables. -/
theorem surveyed_of_enforceAll {memory : Memory} (hreachable : memory.Reachable)
    (hparents : ∀ chain ∈ chains, memory.tables.hasChain chain.parentId = true)
    (habsent : ∀ chain ∈ chains, ∀ generation, memory.tables.rules? (chain.generationId generation) = none)
    {sets : List RuleSet} (hsets : ∀ set ∈ sets, set.chain ∈ chains) {failures : List (List Kind)} {readings : List Nat}
    {before : Scene} (hbefore : enforceAll { filter := { memory }, failures, readings } sets = before)
    (hdigits : TenDigits before.filter.history) : Surveyed chains [] before.filter.journal := by
  subst hbefore
  refine surveyed_enforceAll hsets (fun _ => ?_) hdigits
  exact Enforcer.surveyed_start hreachable.noDangling hparents habsent

end Scene

/-- After any attempts, one of which no call is made to fail ends in the error for a chain that cannot be added if and only
if the name that comes next is linked elsewhere or was to be removed. -/
theorem createChain_iff_linkedElsewhere_or_abandoned {memory : Memory} (hreachable : memory.Reachable)
    (hparents : ∀ chain ∈ chains, memory.tables.hasChain chain.parentId = true)
    (habsent : ∀ chain ∈ chains, ∀ generation, memory.tables.rules? (chain.generationId generation) = none)
    {sets : List RuleSet} (hsets : ∀ set ∈ sets, set.chain ∈ chains) (hset : set.chain ∈ chains)
    {failures : List (List Kind)} {readings : List Nat} {before last : Scene} {result : Except EnforceError Unit}
    (hbefore : Scene.enforceAll { filter := { memory }, failures, readings } sets = before)
    (henforce : before.enforce set = (result, last)) (hquiet : Scene.Quiet before last)
    (hdigits : TenDigits last.filter.history) :
    (∃ cause, result = .error (.createChain cause)) ↔
      LinkedElsewhere chains before.filter.memory.tables set.chain
          (nextIn before.filter.memory.tables set.chain (before.readings.headD 0)) ∨
        Abandoned before.filter.history
          (set.chain.generationId (nextIn before.filter.memory.tables set.chain (before.readings.headD 0))) := by
  have hsurveyed := Scene.surveyed_of_enforceAll hreachable hparents habsent hsets hbefore (hquiet.tenDigits hdigits)
  obtain rfl : (before.enforce set).1 = result := congrArg Prod.fst henforce
  obtain rfl : (before.enforce set).2 = last := congrArg Prod.snd henforce
  exact Scene.createChain_iff_of_surveyed hsurveyed hset hquiet hdigits

/-- A new filter, on which the first rule set cannot be filled in, nor its generation be deleted. The clock goes on to show
the same second. -/
def unfilledScene : Scene :=
  Scene.enforceAll
    { filter := { memory := Memory.initial }
      failures := [[], [], [.bulkAppend, .deleteChain]]
      readings := [1700000000, 1700000000] } [remotePlan false]

theorem absent_initial_generation (chain : Chain) (generation : Nat) :
    Tables.initial.rules? (chain.generationId generation) = none := by
  rw [Tables.rules?_eq_none_iff]
  intro hmem
  simp only [Tables.initial, List.map_map, List.mem_map] at hmem
  obtain ⟨name, hname, heq⟩ := hmem
  have hbuiltin : ∀ text ∈ Tables.builtinChains, text.toList.getLast?.any Char.isDigit = false := by decide
  apply Generation.name_notMem_of_getLast? hbuiltin chain.stem generation
  rw [← show name = Generation.name chain.stem generation from congrArg Filter.ChainId.name heq]
  exact hname

/-- The next rule set meets the generation that could not be deleted. -/
theorem createChain_of_abandoned :
    Memory.initial.Reachable ∧
      (∀ chain ∈ [(remotePlan true).chain], Tables.initial.hasChain chain.parentId = true) ∧
      (∀ chain ∈ [(remotePlan true).chain], ∀ generation,
        Tables.initial.rules? (chain.generationId generation) = none) ∧
      Scene.Quiet unfilledScene (unfilledScene.enforce (remotePlan true)).2 ∧
      TenDigits (unfilledScene.enforce (remotePlan true)).2.filter.history ∧
      (unfilledScene.enforce (remotePlan true)).1 = .error (.createChain Tables.Refusal.chainExists.toError) ∧
      (LinkedElsewhere [(remotePlan true).chain] unfilledScene.filter.memory.tables (remotePlan true).chain
          (nextIn unfilledScene.filter.memory.tables (remotePlan true).chain (unfilledScene.readings.headD 0)) ∨
        Abandoned unfilledScene.filter.history ((remotePlan true).chain.generationId
          (nextIn unfilledScene.filter.memory.tables (remotePlan true).chain (unfilledScene.readings.headD 0)))) := by
  have hparents : ∀ chain ∈ [(remotePlan true).chain], Tables.initial.hasChain chain.parentId = true := by
    decide
  have habsent : ∀ chain ∈ [(remotePlan true).chain], ∀ generation,
      Tables.initial.rules? (chain.generationId generation) = none :=
    fun chain _ => absent_initial_generation chain
  have hquiet : Scene.Quiet unfilledScene (unfilledScene.enforce (remotePlan true)).2 :=
    Scene.quiet_enforce (by decide) (by decide)
  have hdigits : TenDigits (unfilledScene.enforce (remotePlan true)).2.filter.history :=
    Enforcer.tenDigits_of_names (by decide)
  have hresult : (unfilledScene.enforce (remotePlan true)).1 =
      .error (.createChain Tables.Refusal.chainExists.toError) := by decide
  refine ⟨.initial, hparents, habsent, hquiet, hdigits, hresult, ?_⟩
  have hsets : ∀ set ∈ [remotePlan false], set.chain ∈ [(remotePlan true).chain] := by decide
  exact (createChain_iff_linkedElsewhere_or_abandoned .initial hparents habsent hsets (List.mem_singleton_self _) rfl
    (Prod.ext hresult rfl) hquiet hdigits).mp ⟨_, rfl⟩

/-- Two chains of one stem, under two parents. -/
def sharedStem : Config where
  planners := [.fixed ⟨"filter", "FORWARD", "p-"⟩ [], .fixed ⟨"filter", "INPUT", "p-"⟩ []]

/-- The first of them has been put into force, and the clock goes on to show the same second. -/
def sharedScene : Scene :=
  Scene.enforceAll { filter := { memory := Memory.initial }, readings := [1700000000, 1700000000] }
    [⟨⟨"filter", "FORWARD", "p-"⟩, []⟩]

/-- A valid configuration may have both chains. The second rule set meets the first one's generation in the table, as it
is not in the second parent. -/
theorem collision_of_shared_stem :
    sharedStem.validate.isOk = true ∧ (sharedStem.planners.map Planner.chain).Nodup ∧ Memory.initial.Reachable ∧
      (∀ chain ∈ sharedStem.planners.map Planner.chain, Tables.initial.hasChain chain.parentId = true) ∧
      (∀ chain ∈ sharedStem.planners.map Planner.chain, ∀ generation,
        Tables.initial.rules? (chain.generationId generation) = none) ∧
      Scene.Quiet sharedScene (sharedScene.enforce ⟨⟨"filter", "INPUT", "p-"⟩, []⟩).2 ∧
      TenDigits (sharedScene.enforce ⟨⟨"filter", "INPUT", "p-"⟩, []⟩).2.filter.history ∧
      (sharedScene.enforce ⟨⟨"filter", "INPUT", "p-"⟩, []⟩).1 =
        .error (.createChain Tables.Refusal.chainExists.toError) := by
  refine ⟨by decide, by decide, .initial, ?_, fun chain _ => absent_initial_generation chain, ?_, ?_, ?_⟩
  · decide
  · exact Scene.quiet_enforce (by decide) (by decide)
  · exact Enforcer.tenDigits_of_names (by decide)
  · decide

/-- So no name is taken where stems tell the chains apart, as long as no generation was left where it was to be
removed. -/
theorem ne_createChain_of_layout {memory : Memory} (hlayout : Layout chains)
    (hnames : ∀ chain ∈ chains, Generation.inWords? chain.stem.toList chain.parent.toList = none)
    (hreachable : memory.Reachable) (hparents : ∀ chain ∈ chains, memory.tables.hasChain chain.parentId = true)
    (habsent : ∀ chain ∈ chains, ∀ generation, memory.tables.rules? (chain.generationId generation) = none)
    {sets : List RuleSet} (hsets : ∀ set ∈ sets, set.chain ∈ chains) (hset : set.chain ∈ chains)
    {failures : List (List Kind)} {readings : List Nat} {before last : Scene} {result : Except EnforceError Unit}
    (hbefore : Scene.enforceAll { filter := { memory }, failures, readings } sets = before)
    (henforce : before.enforce set = (result, last)) (hquiet : Scene.Quiet before last)
    (hdigits : TenDigits last.filter.history) (hkept : ∀ id, ¬ Abandoned before.filter.history id)
    (cause : Filter.Error) : result ≠ .error (.createChain cause) := by
  have hsurveyed := Scene.surveyed_of_enforceAll hreachable hparents habsent hsets hbefore (hquiet.tenDigits hdigits)
  obtain rfl : (before.enforce set).1 = result := congrArg Prod.fst henforce
  obtain rfl : (before.enforce set).2 = last := congrArg Prod.snd henforce
  intro hresult
  rcases (Scene.createChain_iff_of_surveyed hsurveyed hset hquiet hdigits).mp ⟨cause, hresult⟩ with
    ⟨other, hother, htable, hstem, -, hown⟩ | habandoned
  · rcases hown (hlayout.distinct other hother set.chain hset htable hstem) with hblank | hname
    · exact hblank (hlayout.blankFree set.chain hset)
    · exact hname (hnames set.chain hset)
  · exact hkept _ habandoned

end OverlayHost.Cycle
