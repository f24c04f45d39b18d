import Mathlib.Data.Nat.Find
import OverlayHost.Proofs.ControlPlane.Closing

/-!
# The life of a client

What holds of a client and of all its calls, whatever happens and in whichever order: `life_of_run`. No call is stuck: each
step of a call leaves less to do (`Step.left_lt`), and as long as one has not returned, there is something to be done for it
or for another one (`Run.exists_step`).
-/

set_option autoImplicit false

namespace OverlayHost.ControlPlane

variable {ε : Type} {world : World ε} {state next : State ε} {event : Event} {events more : List Event} {i : Nat}

/-! ## Bringing calls to their ends -/

/-- Whether an event is a step of a call that has begun. -/
def Event.isOfCall : Event → Bool
  | .turn _ | .look _ | .hear _ | .conclude _ => true
  | .enter | .close | .signal _ | .tick _ => false

/-- Only calls and time go on. -/
def Event.GoesOn (event : Event) : Prop := event.isOfCall = true ∨ ∃ moment, event = .tick moment

/-- How many steps a call has to take at most. -/
def Phase.left : Phase ε → Nat
  | .entered => 3
  | .given _ _ .ready => 2
  | .given _ _ (.waiting _) => 1
  | .refused | .given _ _ (.stopped _) | .given _ _ (.ended ..) => 0

/-- How many steps all calls have to take at most. -/
def State.left (state : State ε) : Nat := (state.calls.map Phase.left).sum

theorem sum_left_set_lt {calls : List (Phase ε)} {old new : Phase ε} (hcall : calls[i]? = some old)
    (hless : new.left < old.left) : ((calls.set i new).map Phase.left).sum < (calls.map Phase.left).sum := by
  induction calls generalizing i with
  | nil => cases hcall
  | cons phase calls ih =>
    cases i with
    | zero =>
      obtain rfl := Option.some.inj hcall
      simpa using hless
    | succ i => simpa using ih hcall

/-- A step of a call leaves less to do. -/
theorem Step.left_lt (hstep : Step world state event next) (hcall : event.isOfCall = true) : next.left < state.left := by
  cases hstep with
  | turn hold | vain hold | stop hold | send hold | hear hold | conclude hold =>
    exact sum_left_set_lt hold (by simp [Phase.left])
  | _ => cases hcall

theorem Step.length_eq (hstep : Step world state event next) (hgoes : event.GoesOn) :
    next.calls.length = state.calls.length := by
  rcases hgoes with hcall | ⟨moment, rfl⟩
  · cases hstep with
    | enter => cases hcall
    | close | signal | tick => rfl
    | _ => exact List.length_set
  · cases hstep
    rfl

theorem Run.length_eq (hrun : Run world state more next) (hgoes : ∀ event ∈ more, event.GoesOn) :
    next.calls.length = state.calls.length := by
  induction hrun with
  | nil => rfl
  | @snoc events event next after hrun hstep ih =>
    obtain ⟨hbefore, hevent⟩ := List.forall_mem_append.mp hgoes
    exact (hstep.length_eq (hevent event (List.mem_singleton_self event))).trans (ih hbefore)

/-- The steps of calls are no more than are left. -/
theorem Run.countP_le (hrun : Run world state more next) (hgoes : ∀ event ∈ more, event.GoesOn) :
    more.countP Event.isOfCall + next.left ≤ state.left := by
  induction hrun with
  | nil => simp
  | @snoc events event next after hrun hstep ih =>
    obtain ⟨hbefore, hevent⟩ := List.forall_mem_append.mp hgoes
    have hless := ih hbefore
    rw [List.countP_append, List.countP_singleton]
    rcases hevent event (List.mem_singleton_self event) with hcall | ⟨moment, rfl⟩
    · have hstep := hstep.left_lt hcall
      rw [if_pos hcall]
      omega
    · cases hstep
      exact hless

/-- Among the calls that wait there is one that ends first. -/
theorem State.exists_first (world : World ε) {endpoint : ε} {since : Duration} (hwaits : state.Waits i endpoint since) :
    ∃ i endpoint since, state.Waits i endpoint since ∧ ∀ k other later, state.Waits k other later →
      (world.conclusion i endpoint since).1 ≤ (world.conclusion k other later).1 := by
  classical
  let EndsAt (nanoseconds : Nat) : Prop := ∃ i endpoint since,
    state.Waits i endpoint since ∧ (world.conclusion i endpoint since).1.nanoseconds = nanoseconds
  have hexists : ∃ nanoseconds, EndsAt nanoseconds := ⟨_, i, endpoint, since, hwaits, rfl⟩
  obtain ⟨i, endpoint, since, hfirst, hends⟩ := Nat.find_spec hexists
  refine ⟨i, endpoint, since, hfirst, fun k other later hother => ?_⟩
  rw [Duration.le_iff_nanoseconds, hends]
  exact Nat.find_min' hexists ⟨k, other, later, hother, rfl⟩

/-- As long as a call has not returned, there is a step to be taken by it, or by another one. -/
theorem Run.exists_step (hendpoints : world.endpoints ≠ []) (hrun : Run world world.start events state)
    {phase : Phase ε} (hcall : state.calls[i]? = some phase) (hleft : phase.result? = none) :
    ∃ more next, Run world state more next ∧ (∀ event ∈ more, event.GoesOn) ∧ 0 < more.countP Event.isOfCall := by
  have hone {event : Event} {next : State ε} (hstep : Step world state event next) (hofCall : event.isOfCall = true) :
      ∃ more next, Run world state more next ∧ (∀ event ∈ more, event.GoesOn) ∧ 0 < more.countP Event.isOfCall :=
    ⟨[event], next, .one hstep, List.forall_mem_singleton.mpr (.inl hofCall), by simp [hofCall]⟩
  match phase, hleft with
  | .entered, _ =>
    obtain ⟨endpoint, hnext⟩ := RoundRobin.exists_next_afterTurns hendpoints state.turns
    rw [← hrun.rotation_eq hendpoints] at hnext
    exact hone (.turn hcall hnext) rfl
  | .given turn endpoint .ready, _ =>
    cases hvalue : state.signal.value with
    | true => exact hone (.stop hcall hvalue) rfl
    | false => exact hone (.send hcall hvalue) rfl
  | .given turn endpoint (.waiting since), _ =>
    cases hvalue : state.signal.value with
    | true => exact hone (.hear hcall hvalue) rfl
    | false =>
      -- time goes on until the first of the calls that wait ends by itself
      obtain ⟨k, endpoint, since, ⟨turn, hcall⟩, hfirst⟩ := State.exists_first world ⟨turn, hcall⟩
      obtain ⟨-, hwaits, -⟩ := hrun.isTimely k _ hcall
      have htick : Step world state (.tick (world.conclusion k endpoint since).1)
          { state with now := (world.conclusion k endpoint since).1 } :=
        .tick hwaits fun i endpoint since hother => ⟨hvalue, hfirst i endpoint since hother⟩
      exact ⟨_, _, (Run.one htick).snoc (.conclude hcall rfl), by simp [Event.GoesOn, Event.isOfCall],
        by simp [Event.isOfCall]⟩

/-- Every call can be brought to its end, with nothing happening but that calls and time go on. -/
theorem Run.exists_ended (hendpoints : world.endpoints ≠ []) (hrun : Run world world.start events state) :
    ∃ more last, Run world state more last ∧ (∀ event ∈ more, event.GoesOn) ∧
      last.calls.length = state.calls.length ∧ ∀ phase ∈ last.calls, phase.result?.isSome = true := by
  induction hmeasure : state.left using Nat.strong_induction_on generalizing events state with
  | _ left ih =>
    by_cases hall : ∀ phase ∈ state.calls, phase.result?.isSome = true
    · exact ⟨[], state, .nil, nofun, rfl, hall⟩
    · push Not at hall
      obtain ⟨phase, hmem, hnone⟩ := hall
      obtain ⟨i, hcall⟩ := List.mem_iff_getElem?.mp hmem
      obtain ⟨more, next, hmore, hgoes, hstep⟩ :=
        hrun.exists_step hendpoints hcall (Option.not_isSome_iff_eq_none.mp hnone)
      have hless : next.left < left := by
        have hcount := hmore.countP_le hgoes
        omega
      obtain ⟨rest, last, hrest, hgoes', hlength, hended⟩ := ih next.left hless (hrun.append hmore) rfl
      refine ⟨more ++ rest, last, hmore.append hrest, ?_, hlength.trans (hmore.length_eq hgoes), hended⟩
      exact List.forall_mem_append.mpr ⟨hgoes, hgoes'⟩

/-! ## All that holds of a client -/

/-- The client as a call found it that has come so far. -/
def Phase.client (world : World ε) : Phase ε → Client ε
  | .refused | .entered => { channels := none, timeout := world.timeout }
  | .given turn _ _ => { channels := some (.afterTurns world.endpoints turn), timeout := world.timeout }

/-- What holds of a client and its calls after some events. -/
structure Life (world : World ε) (events : List Event) (state : State ε) : Prop where
  /-- The first closing succeeds, and no other. -/
  closings : state.closings =
    (List.range (events.count .close)).map fun k => if k = 0 then .ok () else .error .channelClosing
  /-- The calls that begin after it are refused, and no other. -/
  refused : ∀ before after, events = before ++ .enter :: after →
    ∃ phase, state.calls[before.count .enter]? = some phase ∧ (phase = .refused ↔ Event.close ∈ before)
  /-- Calls are counted by their turns, each of which is given to one call. -/
  turns : ∀ turn, turn < state.turns ↔ ∃ i, state.turn? i = some turn
  turns_injective : ∀ i k turn, state.turn? i = some turn → state.turn? k = some turn → i = k
  /-- The endpoints come one after another, and then the first one again. -/
  endpoints : ∀ (i turn : Nat) (endpoint : ε) (progress : Progress),
    state.calls[i]? = some (.given turn endpoint progress) → turn < 2 ^ 64 →
      world.endpoints[turn % world.endpoints.length]? = some endpoint
  /-- A call that begins after another one had its turn comes after it, and one that neither overtakes another one nor is
  overtaken has the turn of its number. -/
  later : ∀ before after between, Run world world.start before between → Run world between after state →
    ∀ i k turn later, between.turn? i = some turn → between.calls.length ≤ k → state.turn? k = some later → turn < later
  inOrder : ∀ i turn, state.turn? i = some turn → (∀ k < i, ∃ earlier < turn, state.turn? k = some earlier) →
    (∀ k later, i < k → state.turn? k = some later → turn < later) → turn = i
  /-- The endpoints are asked for the calls that were sent to them, and for no others. -/
  requests : ∀ i endpoint, (i, endpoint) ∈ state.requests ↔
    ∃ turn progress, state.calls[i]? = some (.given turn endpoint progress) ∧ progress.isSent = true
  /-- Once the shutdown signal is set, nothing is sent any more. -/
  silent : ∀ before after between, Run world world.start before between → Run world between after state →
    between.signal.value = true → state.requests = between.requests
  /-- A call that was not sent found it set. -/
  stopped : ∀ (i turn : Nat) (endpoint : ε) (moment : Duration),
    state.calls[i]? = some (.given turn endpoint (.stopped moment)) → ∃ set, state.shutdown = some set ∧ set ≤ moment
  /-- A call that was sent found it unset, and waits until it is set, but not longer than it may. -/
  waiting : ∀ i endpoint since, state.Waits i endpoint since →
    since ≤ state.now ∧ state.now ≤ since + world.timeout ∧ ∀ set, state.shutdown = some set → state.now ≤ set
  ended : ∀ (i turn : Nat) (endpoint : ε) (since moment : Duration) (result : Except Error String),
    state.calls[i]? = some (.given turn endpoint (.ended since moment result)) →
      Outcome world state.shutdown i endpoint since moment result
  /-- What a call returns is what it returns by itself of the client that it found. -/
  results : ∀ (i : Nat) (phase : Phase ε) (result : Except Error String), state.calls[i]? = some phase →
    phase.result? = some result →
      ∃ start first last, ((phase.client world).ip (world.call i start state.shutdown first last)).1 = result
  /-- Without any closing the calls that were not refused come as far. -/
  unclosed : Run world world.start (events.filter (· ≠ .close)) state.unclosed
  /-- All calls can return, as calls and time go on. -/
  returns : ∃ more last, Run world state more last ∧ (∀ event ∈ more, event.GoesOn) ∧
    last.calls.length = state.calls.length ∧ ∀ phase ∈ last.calls, phase.result?.isSome = true
  /-- They cannot go on without end. -/
  bounded : ∀ more next, Run world state more next → (∀ event ∈ more, event.GoesOn) →
    more.countP Event.isOfCall + next.left ≤ state.left

theorem Run.exists_ip_eq (hendpoints : world.endpoints ≠ []) (hrun : Run world world.start events state)
    {phase : Phase ε} {result : Except Error String} (hcall : state.calls[i]? = some phase)
    (hresult : phase.result? = some result) :
    ∃ start first last, ((phase.client world).ip (world.call i start state.shutdown first last)).1 = result := by
  have htimely := hrun.isTimely i phase hcall
  have hnext {turn : Nat} {endpoint : ε} {progress : Progress} (hphase : phase = .given turn endpoint progress) :
      (RoundRobin.afterTurns world.endpoints turn).next = (some endpoint, .afterTurns world.endpoints (turn + 1)) := by
    subst hphase
    have hplaced := hrun.isPlaced hendpoints i _ hcall
    rw [RoundRobin.next_afterTurns hendpoints]
    exact Prod.ext hplaced rfl
  match phase, hresult with
  | .refused, rfl => exact ⟨.zero, false, false, rfl⟩
  | .given turn endpoint (.stopped moment), rfl =>
    obtain ⟨set, hset, hle⟩ := htimely
    obtain ⟨first, last, h⟩ : ∃ first last,
        (world.call i moment state.shutdown first last).result world.timeout endpoint = .error .cancelled :=
      exists_result_eq_of_set hset hle
    refine ⟨moment, first, last, ?_⟩
    rw [Phase.client, ip_eq (hnext rfl)]
    exact h
  | .given turn endpoint (.ended since moment result), rfl =>
    obtain ⟨first, last, h⟩ := htimely.2.exists_result_eq
    refine ⟨since, first, last, ?_⟩
    rw [Phase.client, ip_eq (hnext rfl)]
    exact h

/-- Whatever happens to a client that has endpoints, and in whichever order. -/
theorem life_of_run (hendpoints : world.endpoints ≠ []) (hrun : Run world world.start events state) :
    Life world events state where
  closings := hrun.closings_eq
  refused _ _ hevents := hrun.refused_iff hendpoints hevents
  turns turn := (hrun.exists_turn?_iff turn).symm
  turns_injective _ _ _ := hrun.turn?_injective
  endpoints i turn endpoint progress hcall hturn := by
    have hplaced := hrun.isPlaced hendpoints i _ hcall
    rwa [Phase.IsPlaced, Nat.mod_eq_of_lt hturn] at hplaced
  later _ _ _ hbefore hafter _ _ _ _ hi hk hlater := hbefore.turn?_lt hafter hi hk hlater
  inOrder _ _ := hrun.eq_of_inOrder
  requests i endpoint := by
    rw [hrun.mem_requests_iff, Option.bind_eq_some_iff]
    constructor
    · rintro ⟨_ | _ | ⟨turn, asked, progress⟩, hcall, hsent⟩
      · cases hsent
      · cases hsent
      · rw [Phase.sentTo?, Option.ite_none_right_eq_some] at hsent
        obtain ⟨hsent, ⟨⟩⟩ := hsent
        exact ⟨turn, progress, hcall, hsent⟩
    · rintro ⟨turn, progress, hcall, hsent⟩
      exact ⟨_, hcall, if_pos hsent⟩
  silent _ _ _ _ hafter hset := (hafter.requests_eq_of_set hset).1
  stopped i turn endpoint moment hcall := hrun.isTimely i _ hcall
  waiting i endpoint since hwaits := by
    obtain ⟨turn, hcall⟩ := hwaits
    obtain ⟨hsince, hends, hset⟩ := hrun.isTimely i _ hcall
    exact ⟨hsince, hends.trans (conclusion_le world i endpoint since), hset⟩
  ended i turn endpoint since moment result hcall := (hrun.isTimely i _ hcall).2
  results _ _ _ := hrun.exists_ip_eq hendpoints
  unclosed := hrun.unclosed hendpoints
  returns := hrun.exists_ended hendpoints
  bounded _ _ := Run.countP_le

/-- Two endpoints, of which the first answers and the second does not. -/
def pair : World Nat where
  endpoints := [1, 2]
  timeout := ⟨10⟩
  fate _ endpoint := if endpoint = 1 then some (⟨5⟩, .ok "10.0.0.1") else none

/-- Two calls that are under way when the client is closed, one of which is answered and one cancelled, and a third one. -/
theorem life_of_run_of_pair :
    ∃ events state, Run pair pair.start events state ∧
      state.calls.map Phase.result? =
        [some (.ok "10.0.0.1"), some (.error .cancelled), some (.error .channelClosing)] ∧
      Life pair events state := by
  let closed : State Nat :=
    { rotation := .afterTurns [1, 2] 2, isOpen := false, turns := 2, requests := [(0, 1), (1, 2)], closings := [.ok ()]
      calls := [.given 0 1 (.waiting .zero), .given 1 2 (.waiting .zero), .refused] }
  have hclosed : Run pair pair.start [.enter, .enter, .turn 0, .turn 1, .look 0, .look 1, .close, .enter] closed :=
    (((((((Run.one .enter).snoc .enter).snoc (.turn rfl rfl)).snoc (.turn rfl rfl)).snoc (.send rfl rfl)).snoc
      (.send rfl rfl)).snoc .close).snoc .enter
  have htick : Step pair closed (.tick ⟨5⟩) { closed with now := ⟨5⟩ } := by
    refine .tick (by decide) ?_
    rintro (_ | _ | _ | i) endpoint since ⟨turn, hcall⟩ <;> cases hcall
    · exact ⟨rfl, by decide⟩
    · exact ⟨rfl, by decide⟩
  have hanswered := (hclosed.snoc htick).snoc (.conclude (i := 0) rfl rfl)
  have hset := hanswered.snoc (@Step.signal _ pair _ (.send true) nofun)
  have hended := hset.snoc (.hear (i := 1) rfl rfl)
  exact ⟨_, _, hended, rfl, life_of_run (by decide) hended⟩

end OverlayHost.ControlPlane
