import OverlayHost.Discovery.Lookup
import OverlayHost.Proofs.Shutdown
import Mathlib

/-!
# Cancelled lookups

A lookup that listens to a shutdown signal, whatever is sent on it, next to the one that only knows the moment from which
the signal is set, and to the one that listens to nothing. `nothing_sent_after_cancellation` says that the lookup is cut
off at that moment, unless it was decided by then, and that a signal which is never set makes no difference.
-/

set_option autoImplicit false

namespace OverlayHost.Discovery

open Shutdown

variable {conditions : Conditions} {more index : Nat} {now : Duration}

/-! ## Listening to what is sent -/

/-- The moment at which something is heard, if that comes before the end of a wait; `first` says whether it does if both
come at once. -/
def heardBy (heard : Option Duration) (ending : Duration) (first : Bool) : Option Duration :=
  heard.filter fun moment => moment < ending || (moment = ending && first)

/-- Makes an attempt, and more if need be, and listens to the shutdown signal in every wait. -/
def attemptHeard (conditions : Conditions) (signal : Shutdown) (timeline : Timeline) (more index : Nat) (now : Duration) :
    Outcome :=
  if signal.isTriggered timeline now (conditions.shutdownFirst (3 * index)) then .at now (.error .cancelled)
  else
    let (ending, reply) := concluded (conditions.fate index) now
    match heardBy (signal.triggered now timeline) ending (conditions.shutdownFirst (3 * index + 1)) with
    | some moment => (Outcome.at moment (.error .cancelled)).after ⟨now, moment⟩
    | none =>
      let ended (result : Except Error (List Net.Ipv4)) : Outcome := (Outcome.at ending result).after ⟨now, ending⟩
      match reply with
      | none => ended (.error (.timeout requestTimeout))
      | some (.failed message) => ended (.error (.transport message))
      | some (.response status body) =>
        if status = 200 then ended (decode conditions.shuffle body)
        else match more with
          | 0 => ended (.error (.status status))
          | more + 1 =>
            let next := ending + (basePause index + conditions.jitter index)
            let outcome :=
              match heardBy (signal.triggered ending timeline) next (conditions.shutdownFirst (3 * index + 2)) with
              | some moment => Outcome.at moment (.error .cancelled)
              | none => attemptHeard conditions signal timeline more (index + 1) next
            outcome.after ⟨now, ending⟩

/-- Looks up the addresses of an application, from a moment on, and listens to a shutdown signal. -/
def Client.lookupHeard (client : Client) (conditions : Conditions) (signal : Shutdown) (timeline : Timeline)
    (name : String) (now : Duration) : Outcome :=
  match client.registrationUri name with
  | .error error => .at now (.error error)
  | .ok _ => attemptHeard conditions signal timeline (maxAttempts - 1) 0 now

theorem heardBy_eq {shutdown : Moment} {start : Duration} (hstart : ∀ moment, shutdown = some moment → start ≤ moment)
    (ending : Duration) (first : Bool) :
    heardBy shutdown ending first =
      if shutdown.precedes ending first then some (shutdown.noticed start) else none := by
  cases shutdown with
  | none => rfl
  | some moment =>
    have hnoticed : Moment.noticed (some moment) start = moment := if_pos (hstart moment rfl)
    rw [hnoticed, heardBy, Option.filter_some]
    rfl

/-- What a listener hears is not over before it listens, if it has not heard of it yet. -/
theorem le_of_not_precedes {shutdown : Moment} {first : Bool} (h : ¬ shutdown.precedes now first) {moment : Duration}
    (hmoment : shutdown = some moment) : now ≤ moment := by
  subst hmoment
  simp only [Moment.precedes, Bool.or_eq_true, decide_eq_true_eq, not_or] at h
  exact not_lt.mp h.1

theorem le_of_precedes {moment ending : Duration} {first : Bool} (h : Moment.precedes (some moment) ending first) :
    moment ≤ ending := by
  simp only [Moment.precedes, Bool.or_eq_true, Bool.and_eq_true, decide_eq_true_eq] at h
  rcases h with hlt | ⟨heq, -⟩
  · exact le_of_lt hlt
  · exact le_of_eq heq

theorem le_concluded (fate : Option (Duration × Reply)) (now : Duration) : now ≤ (concluded fate now).1 := by
  unfold concluded
  split
  · split <;> exact Duration.le_add_right _ _
  · exact Duration.le_add_right _ _

theorem attemptHeard_step {signal : Shutdown} {timeline : Timeline} {shutdown : Moment}
    (h : Announces signal timeline shutdown)
    (hmore : ∀ fewer, more = fewer + 1 → ∀ next, attemptHeard conditions signal timeline fewer (index + 1) next =
      attempt { conditions with shutdown := shutdown } fewer (index + 1) next) :
    attemptHeard conditions signal timeline more index now =
      attempt { conditions with shutdown := shutdown } more index now := by
  have hheard {start : Duration} {first : Bool} (hset : ¬ shutdown.precedes start first) (ending : Duration)
      (later : Bool) : heardBy (signal.triggered start timeline) ending later =
        if shutdown.precedes ending later then some (shutdown.noticed start) else none := by
    have hstart : ∀ moment, shutdown = some moment → start ≤ moment := fun moment => le_of_not_precedes hset
    rw [h.triggered_eq start hstart, heardBy_eq hstart]
  unfold attemptHeard attempt
  dsimp only [Conditions.interrupts]
  rw [h.isTriggered_eq]
  by_cases hset : shutdown.precedes now (conditions.shutdownFirst (3 * index))
  · simp only [hset, if_true]
  by_cases hcut : shutdown.precedes (concluded (conditions.fate index) now).1 (conditions.shutdownFirst (3 * index + 1))
  · simp only [hset, hheard hset, hcut, if_true, if_false, Bool.false_eq_true]
  simp only [hset, hheard hset, hcut, if_false, Bool.false_eq_true]
  cases more with
  | zero => rfl
  | succ fewer =>
    simp only [hheard hcut, hmore fewer rfl]
    obtain ⟨ending, _ | ⟨status, body⟩ | _⟩ := concluded (conditions.fate index) now
    · rfl
    · by_cases hpause : shutdown.precedes (ending + (basePause index + conditions.jitter index))
        (conditions.shutdownFirst (3 * index + 2))
      · simp only [hpause, if_true]
      · simp only [hpause, if_false, Bool.false_eq_true]
    · rfl

/-- A lookup that listens is one that knows the moment it will hear of. -/
theorem attemptHeard_eq {signal : Shutdown} {timeline : Timeline} {shutdown : Moment}
    (h : Announces signal timeline shutdown) (conditions : Conditions) (more index : Nat) (now : Duration) :
    attemptHeard conditions signal timeline more index now =
      attempt { conditions with shutdown := shutdown } more index now := by
  induction more generalizing index now with
  | zero => exact attemptHeard_step h fun _ hmore => absurd hmore.symm (Nat.succ_ne_zero _)
  | succ more ih => exact attemptHeard_step h fun _ hmore next => Nat.succ.inj hmore ▸ ih (index + 1) next

/-! ## Cutting off -/

/-- What an attempt decides that ended with a reply or without one; `more` is how many may follow it. -/
def decision (shuffle : Shuffle) (more : Nat) : Option Reply → Option (Except Error (List Net.Ipv4))
  | none => some (.error (.timeout requestTimeout))
  | some (.failed message) => some (.error (.transport message))
  | some (.response status body) =>
    if status = 200 then some (decode shuffle body)
    else if more = 0 then some (.error (.status status)) else none

theorem attempt_of_set (hset : conditions.interrupts (3 * index) now) :
    attempt conditions more index now = .at now (.error .cancelled) := by
  rw [attempt, if_pos hset]

variable {ending : Duration} {reply : Option Reply}

theorem attempt_of_cut (hset : ¬ conditions.interrupts (3 * index) now)
    (hconcluded : concluded (conditions.fate index) now = (ending, reply))
    (hcut : conditions.interrupts (3 * index + 1) ending) :
    attempt conditions more index now =
      (Outcome.at (conditions.shutdown.noticed now) (.error .cancelled)).after
        ⟨now, conditions.shutdown.noticed now⟩ := by
  rw [attempt, if_neg hset, hconcluded]
  simp only [hcut, if_true]

theorem attempt_of_decided (hset : ¬ conditions.interrupts (3 * index) now)
    (hconcluded : concluded (conditions.fate index) now = (ending, reply))
    (hcut : ¬ conditions.interrupts (3 * index + 1) ending) {result : Except Error (List Net.Ipv4)}
    (hresult : decision conditions.shuffle more reply = some result) :
    attempt conditions more index now = (Outcome.at ending result).after ⟨now, ending⟩ := by
  rw [attempt, if_neg hset, hconcluded]
  simp only [hcut, if_false, Bool.false_eq_true]
  unfold decision at hresult
  split at hresult
  next => rw [← Option.some.inj hresult]
  next => rw [← Option.some.inj hresult]
  next status body =>
    split at hresult
    next hok =>
      rw [← Option.some.inj hresult]
      exact if_pos hok
    next hfail =>
      split at hresult
      next hmore =>
        rw [← Option.some.inj hresult, hmore]
        exact if_neg hfail
      next => cases hresult

theorem attempt_of_undecided (hset : ¬ conditions.interrupts (3 * index) now)
    (hconcluded : concluded (conditions.fate index) now = (ending, reply))
    (hcut : ¬ conditions.interrupts (3 * index + 1) ending)
    (hnone : decision conditions.shuffle (more + 1) reply = none) :
    let next := ending + (basePause index + conditions.jitter index)
    attempt conditions (more + 1) index now =
      (if conditions.interrupts (3 * index + 2) next then
          Outcome.at (conditions.shutdown.noticed ending) (.error .cancelled)
        else attempt conditions more (index + 1) next).after ⟨now, ending⟩ := by
  intro next
  rw [attempt, if_neg hset, hconcluded]
  simp only [hcut, if_false, Bool.false_eq_true]
  unfold decision at hnone
  split at hnone
  next => cases hnone
  next => cases hnone
  next status body =>
    split at hnone
    next => cases hnone
    next hfail => exact if_neg hfail

theorem exists_more_of_undecided {shuffle : Shuffle} (hnone : decision shuffle more reply = none) :
    ∃ fewer, more = fewer + 1 := by
  cases more with
  | succ fewer => exact ⟨fewer, rfl⟩
  | zero =>
    unfold decision at hnone
    split at hnone
    next => cases hnone
    next => cases hnone
    next => split at hnone <;> cases hnone

/-- What comes of a lookup that is cut off, next to what comes of it otherwise. -/
structure CutOff (moment now : Duration) (free outcome : Outcome) : Prop where
  cancelled : outcome.result = .error .cancelled
  ending_eq : outcome.ending = max now moment
  undecided : moment ≤ free.ending
  starts : outcome.attempts.map (·.start) <+: free.attempts.map (·.start)
  starts_le : ∀ attempt ∈ outcome.attempts, attempt.start ≤ moment

def Conditions.free (conditions : Conditions) : Conditions := { conditions with shutdown := none }

def Conditions.setFrom (conditions : Conditions) (moment : Duration) : Conditions :=
  { conditions with shutdown := some moment }

/-- An attempt without a shutdown signal decides the lookup, or is followed by another one. -/
theorem attempt_free (conditions : Conditions) (more index : Nat) (now : Duration) :
    ∃ ending reply, concluded (conditions.fate index) now = (ending, reply) ∧ now ≤ ending ∧
      ((∃ result, decision conditions.shuffle more reply = some result ∧
          attempt conditions.free more index now = (Outcome.at ending result).after ⟨now, ending⟩) ∨
        ∃ fewer, more = fewer + 1 ∧ decision conditions.shuffle more reply = none ∧
          attempt conditions.free more index now =
            (attempt conditions.free fewer (index + 1)
              (ending + (basePause index + conditions.jitter index))).after ⟨now, ending⟩) := by
  have hset (wait : Nat) (moment : Duration) : ¬ conditions.free.interrupts wait moment := Bool.false_ne_true
  cases hconcluded : concluded (conditions.fate index) now with | mk ending reply
  refine ⟨ending, reply, rfl, ?_, ?_⟩
  · have hle := le_concluded (conditions.fate index) now
    rwa [hconcluded] at hle
  cases hdecision : decision conditions.shuffle more reply with
  | some result => exact .inl ⟨result, rfl, attempt_of_decided (hset _ _) hconcluded (hset _ _) hdecision⟩
  | none =>
    obtain ⟨fewer, rfl⟩ := exists_more_of_undecided hdecision
    refine .inr ⟨fewer, rfl, rfl, ?_⟩
    have hnext : attempt conditions.free (fewer + 1) index now = _ :=
      attempt_of_undecided (hset _ _) hconcluded (hset _ _) hdecision
    rwa [if_neg (hset _ _)] at hnext

/-- A lookup without a shutdown signal makes its first attempt at once and is not over before. -/
theorem starts_free (conditions : Conditions) (more index : Nat) (now : Duration) :
    let free := attempt conditions.free more index now
    now ≤ free.ending ∧ [now] <+: free.attempts.map (·.start) ∧ ∀ attempt ∈ free.attempts, attempt.start ≤ free.ending := by
  induction more using Nat.strongRecOn generalizing index now with | _ more ih
  obtain ⟨ending, reply, -, hle, hends⟩ := attempt_free conditions more index now
  rcases hends with ⟨result, -, hfree⟩ | ⟨fewer, rfl, -, hfree⟩
  · rw [hfree]
    exact ⟨hle, List.prefix_rfl, List.forall_mem_singleton.mpr hle⟩
  · rw [hfree]
    obtain ⟨hnext, -, hrest⟩ :=
      ih fewer (Nat.lt_succ_self fewer) (index + 1) (ending + (basePause index + conditions.jitter index))
    have hwhole := le_trans hle (le_trans (Duration.le_add_right _ _) hnext)
    exact ⟨hwhole, List.prefix_append [now] _, List.forall_mem_cons.mpr ⟨hwhole, hrest⟩⟩

theorem CutOff.cons {moment now ending next : Duration} {free outcome : Outcome} (h : CutOff moment next free outcome)
    (hnow : now ≤ moment) (hnext : next ≤ moment) :
    CutOff moment now (free.after ⟨now, ending⟩) (outcome.after ⟨now, ending⟩) where
  cancelled := h.cancelled
  ending_eq := by
    rw [max_eq_right hnow, ← max_eq_right hnext]
    exact h.ending_eq
  undecided := h.undecided
  starts := List.prefix_cons_inj now |>.mpr h.starts
  starts_le := List.forall_mem_cons.mpr ⟨hnow, h.starts_le⟩

/-- Setting the signal cuts a lookup off, unless it is decided by then. -/
theorem attempt_setFrom (conditions : Conditions) (moment : Duration) (more index : Nat) (now : Duration) :
    let free := attempt conditions.free more index now
    let outcome := attempt (conditions.setFrom moment) more index now
    (outcome = free ∧ free.ending ≤ moment) ∨ CutOff moment now free outcome := by
  induction more using Nat.strongRecOn generalizing index now with | _ more ih
  obtain ⟨hfirst, hstarts, -⟩ := starts_free conditions more index now
  obtain ⟨ending, reply, hconcluded, hle, hends⟩ := attempt_free conditions more index now
  have hopen {wait : Nat} {ending : Duration} (h : ¬ (conditions.setFrom moment).interrupts wait ending) :
      ending ≤ moment := le_of_not_precedes h rfl
  have hshut {wait : Nat} {ending : Duration} (h : (conditions.setFrom moment).interrupts wait ending) :
      moment ≤ ending := le_of_precedes h
  intro free outcome
  by_cases hset : (conditions.setFrom moment).interrupts (3 * index) now
  · have hnow := hshut hset
    have houtcome : outcome = .at now (.error .cancelled) := attempt_of_set hset
    rw [houtcome]
    exact .inr ⟨rfl, (max_eq_left hnow).symm, le_trans hnow hfirst, List.nil_prefix, List.forall_mem_nil _⟩
  have hnow := hopen hset
  by_cases hcut : (conditions.setFrom moment).interrupts (3 * index + 1) ending
  · have houtcome : outcome = (Outcome.at (max now moment) (.error .cancelled)).after ⟨now, max now moment⟩ :=
      attempt_of_cut hset hconcluded hcut
    have hending : ending ≤ free.ending := by
      rcases hends with ⟨result, -, hfree⟩ | ⟨fewer, -, -, hfree⟩
      · exact le_of_eq (congrArg Outcome.ending hfree).symm
      · rw [show free = _ from hfree]
        exact le_trans (Duration.le_add_right _ _) (starts_free conditions fewer (index + 1) _).1
    rw [houtcome]
    exact .inr ⟨rfl, rfl, le_trans (hshut hcut) hending, hstarts, List.forall_mem_singleton.mpr hnow⟩
  have hending := hopen hcut
  rcases hends with ⟨result, hdecision, hfree⟩ | ⟨fewer, rfl, hnone, hfree⟩
  · refine .inl ⟨?_, ?_⟩
    · exact (attempt_of_decided hset hconcluded hcut hdecision).trans hfree.symm
    · exact le_of_eq_of_le (congrArg Outcome.ending hfree) hending
  · have houtcome : outcome = _ := attempt_of_undecided hset hconcluded hcut hnone
    obtain ⟨hnext, -, -⟩ :=
      starts_free conditions fewer (index + 1) (ending + (basePause index + conditions.jitter index))
    rw [houtcome, show free = _ from hfree]
    split
    next hpause =>
      have hinner : CutOff moment ending (attempt conditions.free fewer (index + 1) _)
          (.at (max ending moment) (.error .cancelled)) :=
        ⟨rfl, rfl, le_trans (hshut hpause) hnext, List.nil_prefix, List.forall_mem_nil _⟩
      exact .inr (hinner.cons hnow hending)
    next hpause =>
      rcases ih fewer (Nat.lt_succ_self fewer) (index + 1) _ with ⟨hsame, hby⟩ | hinner
      · exact .inl ⟨congrArg (Outcome.after ⟨now, ending⟩) hsame, hby⟩
      · exact .inr (hinner.cons hnow (hopen hpause))

/-! ## Whole lookups -/

/-- The last attempt of a lookup decided it. -/
def Decided (conditions : Conditions) (outcome : Outcome) : Prop :=
  ∃ last start reply, outcome.attempts.length = last + 1 ∧ outcome.attempts.getLast? = some ⟨start, outcome.ending⟩ ∧
    concluded (conditions.fate last) start = (outcome.ending, reply) ∧
    decision conditions.shuffle (maxAttempts - 1 - last) reply = some outcome.result

theorem attempt_decided (conditions : Conditions) (more index : Nat) (now : Duration) :
    let free := attempt conditions.free more index now
    ∃ last start reply, free.attempts.length = last + 1 ∧ last ≤ more ∧
      free.attempts.getLast? = some ⟨start, free.ending⟩ ∧
      concluded (conditions.fate (index + last)) start = (free.ending, reply) ∧
      decision conditions.shuffle (more - last) reply = some free.result := by
  induction more using Nat.strongRecOn generalizing index now with | _ more ih
  obtain ⟨ending, reply, hconcluded, -, hends⟩ := attempt_free conditions more index now
  rcases hends with ⟨result, hdecision, hfree⟩ | ⟨fewer, rfl, -, hfree⟩
  · rw [hfree]
    exact ⟨0, now, reply, rfl, Nat.zero_le _, rfl, hconcluded, hdecision⟩
  · obtain ⟨last, start, reply, hlength, hlast, hget, hends, hdecision⟩ :=
      ih fewer (Nat.lt_succ_self fewer) (index + 1) (ending + (basePause index + conditions.jitter index))
    rw [hfree]
    refine ⟨last + 1, start, reply, congrArg (· + 1) hlength, Nat.succ_le_succ hlast, ?_, ?_, ?_⟩
    · show (_ :: _).getLast? = _
      rw [List.getLast?_cons, hget]
      rfl
    · rw [Nat.add_assoc, Nat.add_comm 1] at hends
      exact hends
    · rw [Nat.add_sub_add_right]
      exact hdecision

theorem lookup_eq {client : Client} {name : String} {uri : Net.Uri} (huri : client.registrationUri name = .ok uri)
    (conditions : Conditions) (now : Duration) :
    client.lookup conditions name now = attempt conditions (maxAttempts - 1) 0 now := by
  rw [Client.lookup, huri]

theorem lookupHeard_eq {client : Client} {signal : Shutdown} {timeline : Timeline} {shutdown : Moment}
    (h : Announces signal timeline shutdown) (conditions : Conditions) (name : String) (now : Duration) :
    client.lookupHeard conditions signal timeline name now =
      client.lookup { conditions with shutdown := shutdown } name now := by
  unfold Client.lookupHeard Client.lookup
  cases client.registrationUri name with
  | error error => rfl
  | ok uri => exact attemptHeard_eq h conditions (maxAttempts - 1) 0 now

/-- A lookup of a name whose URL can be read is cut off at the moment at which the signal is set, unless an attempt has
decided it by then, and makes the same attempts until then. A signal that is never set makes no difference at all. -/
theorem nothing_sent_after_cancellation (client : Client) (conditions : Conditions) (signal : Shutdown)
    (timeline : Timeline) (name : String) (now : Duration) {uri : Net.Uri}
    (huri : client.registrationUri name = .ok uri) :
    let free := client.lookup conditions.free name now
    let outcome := client.lookupHeard conditions signal timeline name now
    Decided conditions free ∧
    (∀ moment, SetFrom signal timeline moment →
      outcome = client.lookup (conditions.setFrom moment) name now ∧
      (∀ attempt ∈ outcome.attempts, attempt.start ≤ moment) ∧
      ((outcome = free ∧ free.ending ≤ moment) ∨ CutOff moment now free outcome)) ∧
    (signal.value = true → (∀ done ∈ timeline, done.2 ≠ .send false) → outcome = .at now (.error .cancelled)) ∧
    (NeverSet signal timeline → outcome = free) := by
  intro free outcome
  have hfree : free = attempt conditions.free (maxAttempts - 1) 0 now := lookup_eq huri conditions.free now
  refine ⟨?_, ?_, ?_, ?_⟩
  · obtain ⟨last, start, reply, hlength, -, hget, hends, hdecision⟩ :=
      attempt_decided conditions (maxAttempts - 1) 0 now
    rw [Nat.zero_add] at hends
    rw [hfree]
    exact ⟨last, start, reply, hlength, hget, hends, hdecision⟩
  · intro moment hset
    have houtcome : outcome = client.lookup (conditions.setFrom moment) name now :=
      lookupHeard_eq (announces_of_setFrom hset) conditions name now
    have hcut := attempt_setFrom conditions moment (maxAttempts - 1) 0 now
    have hstarts := (starts_free conditions (maxAttempts - 1) 0 now).2.2
    rw [← hfree, ← lookup_eq huri, ← houtcome] at hcut
    rw [← hfree] at hstarts
    refine ⟨houtcome, ?_, hcut⟩
    rcases hcut with ⟨hsame, hby⟩ | hcut
    · rw [hsame]
      exact fun attempt hattempt => le_trans (hstarts attempt hattempt) hby
    · exact hcut.starts_le
  · intro hset hleft
    have hheard : outcome = attemptHeard conditions signal timeline (maxAttempts - 1) 0 now := by
      unfold outcome Client.lookupHeard
      rw [huri]
    rw [hheard, attemptHeard.eq_def, if_pos (isTriggered_of_set hset hleft _ _)]
  · exact fun hnever => lookupHeard_eq (announces_of_neverSet hnever) conditions name now

/-- Every request is answered by a failure after 10 ms; the signal is set in the first pause. -/
theorem cut_off_in_first_pause :
    let client : Client := ⟨"http://sd"⟩
    let conditions : Conditions :=
      { fate := fun _ => some (.ofMillis 10, .response 503 []), jitter := fun _ => .ofMillis 60, shuffle := .ascending,
        shutdown := none, shutdownFirst := fun _ => false }
    let timeline : Timeline := [(.ofMillis 5, .send false), (.ofMillis 30, .send true), (.ofMillis 40, .close)]
    let free := client.lookup conditions.free "app" .zero
    let outcome := client.lookupHeard conditions {} timeline "app" .zero
    client.registrationUri "app" = .ok ⟨some "http", some "sd", "/v1/registration/app", none⟩ ∧
      outcome.attempts = [⟨.zero, .ofMillis 10⟩] ∧ outcome.ending = .ofMillis 30 ∧
      ((outcome = free ∧ free.ending ≤ .ofMillis 30) ∨ CutOff (.ofMillis 30) .zero free outcome) := by
  intro client conditions timeline free outcome
  have huri : (Client.mk "http://sd").registrationUri "app" =
      .ok ⟨some "http", some "sd", "/v1/registration/app", none⟩ := by
    cbv
  have hset : SetFrom {} timeline (.ofMillis 30) :=
    ⟨rfl, rfl, [(.ofMillis 5, .send false)], [(.ofMillis 40, .close)], rfl, by decide, by decide⟩
  obtain ⟨-, hcut, -⟩ := nothing_sent_after_cancellation client conditions {} timeline "app" .zero huri
  refine ⟨huri, ?_, ?_, (hcut (.ofMillis 30) hset).2.2⟩
  · unfold outcome client conditions timeline
    cbv
  · unfold outcome client conditions timeline
    cbv

end OverlayHost.Discovery
