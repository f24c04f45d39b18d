import OverlayHost.Proofs.ControlPlane.Turns

/-!
# How calls end

A call that finds the shutdown signal set is not sent (`Run.isTimely`, `Run.mem_requests_iff`). A call that was sent ends
when the signal is set, with its answer, or at its deadline (`Outcome`), and that is what the client itself makes of such a
call (`Outcome.exists_ip_eq`).
-/

set_option autoImplicit false

namespace OverlayHost.ControlPlane

variable {ε : Type} {world : World ε} {state next : State ε} {event : Event} {events : List Event}
variable {shutdown : Shutdown.Moment} {i turn : Nat} {endpoint : ε} {since moment now : Duration}
variable {result : Except Error String}

/-! ## The moment of the signal -/

/-- The signal is set just if there was a moment at which it was set. -/
structure State.Clocked (state : State ε) : Prop where
  value_eq : state.signal.value = state.shutdown.isSome
  le_now : ∀ set, state.shutdown = some set → set ≤ state.now

theorem State.Clocked.shutdown_eq_none (h : state.Clocked) (hunset : state.signal.value = false) :
    state.shutdown = none := by
  rw [h.value_eq, Option.isSome_eq_false_iff, Option.isNone_iff_eq_none] at hunset
  exact hunset

theorem State.Clocked.hearing (h : state.Clocked) {event : Shutdown.Event}
    (hleft : event = .send false → state.signal.value = false) : (state.hearing event).Clocked := by
  cases hvalue : state.signal.value with
  | true =>
    have hkept : (state.signal.receive event).value = true := by
      refine Shutdown.value_receive_of_ne hvalue fun hsent => ?_
      rw [hleft hsent] at hvalue
      cases hvalue
    obtain ⟨set, hset⟩ := Option.isSome_iff_exists.mp (h.value_eq.symm.trans hvalue)
    have hsame : (state.hearing event).shutdown = some set := by simp [State.hearing, hkept, hset]
    refine ⟨by rw [hsame]; exact hkept, fun other hother => ?_⟩
    obtain rfl := Option.some.inj (hsame.symm.trans hother)
    exact h.le_now set hset
  | false =>
    have hnone := h.shutdown_eq_none hvalue
    have hnew : (state.hearing event).shutdown =
        if (state.signal.receive event).value then some state.now else none := by
      simp [State.hearing, hnone]
    refine ⟨?_, fun set hset => ?_⟩
    · rw [hnew]
      show (state.signal.receive event).value = _
      cases (state.signal.receive event).value <;> rfl
    · rw [hnew] at hset
      split at hset
      · cases hset
        exact le_rfl
      · cases hset

theorem Step.clocked (hstep : Step world state event next) (h : state.Clocked) : next.Clocked := by
  cases hstep with
  | signal hleft => exact h.hearing hleft
  | tick hlater => exact ⟨h.value_eq, fun set hset => (h.le_now set hset).trans hlater⟩
  | _ => exact ⟨h.value_eq, h.le_now⟩

theorem Run.clocked (hrun : Run world world.start events state) : state.Clocked := by
  induction hrun with
  | nil => exact ⟨rfl, nofun⟩
  | snoc _ hstep ih => exact hstep.clocked ih

/-! ## How a call ends that was sent -/

/-- How a call ends that waits since a moment: when the signal is set, at its deadline, or with its answer. -/
inductive Outcome (world : World ε) (shutdown : Shutdown.Moment) (i : Nat) (endpoint : ε) (since : Duration) :
    Duration → Except Error String → Prop
  | cancelled {moment : Duration} (hset : shutdown = some moment) (hsince : since ≤ moment)
      (hwaits : moment ≤ (world.conclusion i endpoint since).1) :
      Outcome world shutdown i endpoint since moment (.error .cancelled)
  | late (hnone : ∀ delay answer, world.fate i endpoint = some (delay, answer) → world.timeout < delay)
      (hunset : ∀ set, shutdown = some set → since + world.timeout ≤ set) :
      Outcome world shutdown i endpoint since (since + world.timeout) (.error (.rpc lateStatus))
  | answered {delay : Duration} {text : String} (hfate : world.fate i endpoint = some (delay, .ok text))
      (htimely : delay ≤ world.timeout) (hunset : ∀ set, shutdown = some set → since + delay ≤ set) :
      Outcome world shutdown i endpoint since (since + delay) (.ok text)
  | failed {delay : Duration} {status : Status} (hfate : world.fate i endpoint = some (delay, .error status))
      (htimely : delay ≤ world.timeout) (hunset : ∀ set, shutdown = some set → since + delay ≤ set) :
      Outcome world shutdown i endpoint since (since + delay) (.error (.rpc status))

theorem le_conclusion (world : World ε) (i : Nat) (endpoint : ε) (since : Duration) :
    since ≤ (world.conclusion i endpoint since).1 := by
  unfold World.conclusion Call.concluded
  split
  · split <;> exact Duration.le_add_right _ _
  · exact Duration.le_add_right _ _

theorem conclusion_le (world : World ε) (i : Nat) (endpoint : ε) (since : Duration) :
    (world.conclusion i endpoint since).1 ≤ since + world.timeout := by
  unfold World.conclusion Call.concluded
  split
  · split
    next htimely => exact Nat.add_le_add_left htimely _
    next => exact le_rfl
  · exact le_rfl

theorem Outcome.of_conclusion {answer : Except Status String}
    (hdue : world.conclusion i endpoint since = (moment, answer)) (hunset : ∀ set, shutdown = some set → moment ≤ set) :
    Outcome world shutdown i endpoint since moment (answer.mapError Error.rpc) := by
  unfold World.conclusion Call.concluded at hdue
  simp only [World.call] at hdue
  split at hdue
  next delay reply hfate =>
    split at hdue
    next htimely =>
      cases hdue
      cases answer with
      | ok text => exact .answered hfate htimely hunset
      | error status => exact .failed hfate htimely hunset
    next hlate =>
      cases hdue
      refine .late (fun other reply' hother => ?_) hunset
      rw [hfate] at hother
      cases hother
      exact not_le.mp hlate
  next hnone =>
    cases hdue
    refine .late (fun other reply hother => ?_) hunset
    rw [hnone] at hother
    cases hother

/-- A call that has ended does not mind a signal that is set later. -/
theorem Outcome.of_set_later (h : Outcome world none i endpoint since moment result) (hnow : moment ≤ now) :
    Outcome world (some now) i endpoint since moment result := by
  have hunset : ∀ set, some now = some set → moment ≤ set := by
    rintro _ ⟨⟩
    exact hnow
  cases h with
  | cancelled hset => cases hset
  | late hnone => exact .late hnone hunset
  | answered hfate htimely => exact .answered hfate htimely hunset
  | failed hfate htimely => exact .failed hfate htimely hunset

/-! ## What the client itself makes of a call -/

theorem precedes_eq_false {ending : Duration} (hunset : ∀ set, shutdown = some set → ending ≤ set) :
    shutdown.precedes ending false = false := by
  cases shutdown with
  | none => rfl
  | some set => simpa [Shutdown.Moment.precedes] using hunset set rfl

theorem precedes_eq_true {set ending : Duration} (hset : shutdown = some set) (hle : set ≤ ending) :
    shutdown.precedes ending true = true := by
  subst hset
  simpa [Shutdown.Moment.precedes] using lt_or_eq_of_le hle

theorem ip_eq {rotation after : RoundRobin ε} {timeout : Duration} (hnext : rotation.next = (some endpoint, after))
    (call : Call ε) :
    Client.ip { channels := some rotation, timeout } call =
      (call.result timeout endpoint, { channels := some after, timeout }) := by
  simp [Client.ip, hnext]

/-- A call that finds the signal set is cancelled. -/
theorem exists_result_eq_of_set {set start : Duration} (hset : shutdown = some set) (hle : set ≤ start) :
    ∃ first last, (world.call i start shutdown first last).result world.timeout endpoint = .error .cancelled := by
  refine ⟨true, true, ?_⟩
  unfold Call.result
  exact if_pos (precedes_eq_true hset hle)

theorem conclusion_of_timely {delay : Duration} {answer : Except Status String}
    (hfate : world.fate i endpoint = some (delay, answer)) (htimely : delay ≤ world.timeout) :
    world.conclusion i endpoint since = (since + delay, answer) := by
  simp [World.conclusion, Call.concluded, World.call, hfate, htimely]

theorem conclusion_of_late
    (hnone : ∀ delay answer, world.fate i endpoint = some (delay, answer) → world.timeout < delay) :
    world.conclusion i endpoint since = (since + world.timeout, .error lateStatus) := by
  unfold World.conclusion Call.concluded
  simp only [World.call]
  split
  next delay answer hfate => rw [if_neg (not_le.mpr (hnone delay answer hfate))]
  next => rfl

/-- A call that was sent is cancelled, or ends by itself. -/
theorem Outcome.conclusion_cases (h : Outcome world shutdown i endpoint since moment result) :
    (shutdown = some moment ∧ since ≤ moment ∧ moment ≤ (world.conclusion i endpoint since).1 ∧
        result = .error .cancelled) ∨
      ∃ answer, world.conclusion i endpoint since = (moment, answer) ∧ result = answer.mapError Error.rpc ∧
        ∀ set, shutdown = some set → moment ≤ set := by
  cases h with
  | cancelled hset hsince hwaits => exact .inl ⟨hset, hsince, hwaits, rfl⟩
  | late hnone hunset => exact .inr ⟨_, conclusion_of_late hnone, rfl, hunset⟩
  | answered hfate htimely hunset | failed hfate htimely hunset =>
    exact .inr ⟨_, conclusion_of_timely hfate htimely, rfl, hunset⟩

/-- A call that was sent ends as the client has it end. -/
theorem Outcome.exists_result_eq (h : Outcome world shutdown i endpoint since moment result) :
    ∃ first last, (world.call i since shutdown first last).result world.timeout endpoint = result := by
  have hconcluded (last : Bool) (hunset : ∀ set, shutdown = some set → since ≤ set) :
      (world.call i since shutdown false last).result world.timeout endpoint =
        if shutdown.precedes (world.conclusion i endpoint since).1 last then .error .cancelled
        else (world.conclusion i endpoint since).2.mapError Error.rpc := by
    unfold Call.result
    exact if_neg (ne_true_of_eq_false (precedes_eq_false hunset))
  rcases h.conclusion_cases with ⟨hset, hsince, hwaits, rfl⟩ | ⟨answer, hconclusion, rfl, hunset⟩
  · refine ⟨false, true, ?_⟩
    rw [hconcluded true (by rw [hset]; rintro _ ⟨⟩; exact hsince), if_pos (precedes_eq_true hset hwaits)]
  · have hsince : since ≤ moment := by
      have h := le_conclusion world i endpoint since
      rwa [hconclusion] at h
    refine ⟨false, false, ?_⟩
    rw [hconcluded false fun set hset => hsince.trans (hunset set hset), hconclusion,
      if_neg (ne_true_of_eq_false (precedes_eq_false hunset))]

/-! ## Every call of a client -/

/-- What is true of a call at a moment, with the signal set or not. -/
def Phase.IsTimely (world : World ε) (shutdown : Shutdown.Moment) (now : Duration) (i : Nat) : Phase ε → Prop
  | .refused | .entered | .given _ _ .ready => True
  | .given _ _ (.stopped moment) => ∃ set, shutdown = some set ∧ set ≤ moment
  | .given _ endpoint (.waiting since) =>
    since ≤ now ∧ now ≤ (world.conclusion i endpoint since).1 ∧ ∀ set, shutdown = some set → now ≤ set
  | .given _ endpoint (.ended since moment result) =>
    moment ≤ now ∧ Outcome world shutdown i endpoint since moment result

theorem Phase.IsTimely.of_set {phase : Phase ε} (h : phase.IsTimely world none now i) :
    phase.IsTimely world (some now) now i := by
  match phase, h with
  | .refused, _ | .entered, _ | .given _ _ .ready, _ => trivial
  | .given _ _ (.stopped _), ⟨_, hset, _⟩ => cases hset
  | .given _ _ (.waiting _), ⟨hsince, hwaits, _⟩ => exact ⟨hsince, hwaits, by rintro _ ⟨⟩; exact le_rfl⟩
  | .given _ _ (.ended ..), ⟨hnow, houtcome⟩ => exact ⟨hnow, houtcome.of_set_later hnow⟩

theorem Phase.IsTimely.of_le {phase : Phase ε} {later : Duration} (h : phase.IsTimely world shutdown now i)
    (hlater : now ≤ later)
    (hdone : ∀ turn endpoint since, phase = .given turn endpoint (.waiting since) →
      shutdown = none ∧ later ≤ (world.conclusion i endpoint since).1) : phase.IsTimely world shutdown later i := by
  match phase, h with
  | .refused, _ | .entered, _ | .given _ _ .ready, _ => trivial
  | .given _ _ (.stopped _), h => exact h
  | .given turn endpoint (.waiting since), ⟨hsince, _, _⟩ =>
    obtain ⟨hnone, hwaits⟩ := hdone turn endpoint since rfl
    refine ⟨hsince.trans hlater, hwaits, fun set hset => ?_⟩
    rw [hnone] at hset
    cases hset
  | .given _ _ (.ended ..), ⟨hnow, houtcome⟩ => exact ⟨hnow.trans hlater, houtcome⟩

theorem Step.isTimely (hstep : Step world state event next) (hclock : state.Clocked)
    (h : ∀ i (phase : Phase ε), state.calls[i]? = some phase → phase.IsTimely world state.shutdown state.now i) :
    ∀ i (phase : Phase ε), next.calls[i]? = some phase → phase.IsTimely world next.shutdown next.now i := by
  cases hstep with
  | enter =>
    refine forall_getElem?_concat h ?_
    split <;> trivial
  | turn | vain => exact forall_getElem?_set h trivial
  | stop hcall hset =>
    obtain ⟨set, hsome⟩ := Option.isSome_iff_exists.mp (hclock.value_eq.symm.trans hset)
    exact forall_getElem?_set h ⟨set, hsome, hclock.le_now set hsome⟩
  | send hcall hunset =>
    refine forall_getElem?_set h ⟨le_rfl, le_conclusion world _ _ _, ?_⟩
    rw [hclock.shutdown_eq_none hunset]
    nofun
  | hear hcall hset =>
    obtain ⟨hsince, hwaits, hnow⟩ := h _ _ hcall
    obtain ⟨set, hsome⟩ := Option.isSome_iff_exists.mp (hclock.value_eq.symm.trans hset)
    -- the signal was set at this very moment, or else it would have been heard before
    have hset : state.shutdown = some state.now := by
      rw [hsome, le_antisymm (hclock.le_now set hsome) (hnow set hsome)]
    exact forall_getElem?_set h ⟨le_rfl, .cancelled hset hsince hwaits⟩
  | conclude hcall hdue =>
    obtain ⟨-, -, hnow⟩ := h _ _ hcall
    exact forall_getElem?_set h ⟨le_rfl, .of_conclusion hdue hnow⟩
  | close => exact h
  | @signal event hleft =>
    intro i phase hcall
    have hold := h i phase hcall
    show phase.IsTimely world (if (state.signal.receive event).value then _ else _) state.now i
    split
    · cases hshutdown : state.shutdown with
      | none =>
        rw [hshutdown] at hold
        exact hold.of_set
      | some set =>
        rw [hshutdown] at hold
        exact hold
    · exact hold
  | tick hlater hdone =>
    intro i phase hcall
    refine (h i phase hcall).of_le hlater ?_
    rintro turn endpoint since rfl
    obtain ⟨hunset, hwaits⟩ := hdone i endpoint since ⟨turn, hcall⟩
    exact ⟨hclock.shutdown_eq_none hunset, hwaits⟩

theorem Run.isTimely (hrun : Run world world.start events state) :
    ∀ i (phase : Phase ε), state.calls[i]? = some phase → phase.IsTimely world state.shutdown state.now i := by
  induction hrun with
  | nil => nofun
  | snoc hrun hstep ih => exact hstep.isTimely hrun.clocked ih

/-! ## Requests -/

/-- The endpoint that a call was sent to. -/
def Phase.sentTo? : Phase ε → Option ε
  | .refused | .entered => none
  | .given _ endpoint progress => if progress.isSent then some endpoint else none

/-- The requests are those of the calls that were sent. -/
theorem Run.mem_requests_iff (hrun : Run world world.start events state) (i : Nat) (endpoint : ε) :
    (i, endpoint) ∈ state.requests ↔ state.calls[i]?.bind Phase.sentTo? = some endpoint := by
  induction hrun with
  | nil => exact iff_of_false List.not_mem_nil nofun
  | @snoc events event state next hrun hstep ih =>
    cases hstep with
    | enter =>
      rw [bind_getElem?_concat (by split <;> rfl)]
      exact ih
    | turn hcall | vain hcall | stop hcall | hear hcall | conclude hcall =>
      refine ih.trans (Eq.congr_left (Eq.symm ?_))
      exact bind_getElem?_set hcall (by rfl) i
    | @send k turn sent hcall =>
      show (i, endpoint) ∈ state.requests ++ [(k, sent)] ↔
        (state.calls.set k (.given turn sent (.waiting state.now)))[i]?.bind Phase.sentTo? = some endpoint
      rw [List.mem_append, List.mem_singleton, ih, List.getElem?_set]
      obtain ⟨hlt, -⟩ := List.getElem?_eq_some_iff.mp hcall
      by_cases hik : k = i
      · subst hik
        rw [if_pos rfl, if_pos hlt, hcall]
        show none = some endpoint ∨ (k, endpoint) = (k, sent) ↔ some sent = some endpoint
        simp [eq_comm]
      · rw [if_neg hik]
        simp [Ne.symm hik]
    | close | signal | tick => exact ih

theorem Step.requests_eq_of_set (hstep : Step world state event next) (hset : state.signal.value = true) :
    next.requests = state.requests ∧ next.signal.value = true := by
  cases hstep with
  | send _ hunset =>
    rw [hset] at hunset
    cases hunset
  | signal hleft =>
    refine ⟨rfl, Shutdown.value_receive_of_ne hset fun hsent => ?_⟩
    rw [hleft hsent] at hset
    cases hset
  | _ => exact ⟨rfl, hset⟩

/-- Once the signal is set, nothing is sent any more. -/
theorem Run.requests_eq_of_set (hrun : Run world state events next) (hset : state.signal.value = true) :
    next.requests = state.requests ∧ next.signal.value = true := by
  induction hrun with
  | nil => exact ⟨rfl, hset⟩
  | snoc _ hstep ih =>
    obtain ⟨hrequests, hvalue⟩ := hstep.requests_eq_of_set ih.2
    exact ⟨hrequests.trans ih.1, hvalue⟩

end OverlayHost.ControlPlane
