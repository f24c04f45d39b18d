import OverlayHost.Proofs.Poller.Schedule
import Mathlib.Logic.Function.Iterate

/-!
# Whole cycles until shutdown

What can be seen of a poller from outside: the cycles that it has executed, when each began and ended, and what came of
it. `whole_cycles_until_shutdown` says, for any schedule of the shutdown signal, of the time and of the poller's turns,
that cycles are executed one at a time and to their end, that nothing but shutdown ends the poller, that sending `false`
makes no difference, and that no cycle begins after shutdown while the one under way is completed.
-/

set_option autoImplicit false

namespace OverlayHost.Poller

variable {π σ : Type} {world : Cycle.World π σ} {planners : List π} {state : σ}

/-! ## Executed cycles -/

structure Executed (σ : Type) where
  start : Duration
  ending : Duration
  outcome : Cycle.Outcome σ

/-- A poller, and what has been seen of its cycles. -/
structure Observed (σ : Type) where
  poller : Poller σ
  executed : List (Executed σ) := []
  /-- When the cycle that is under way began. -/
  start? : Option Duration := none

namespace Observed

/-- Watches something happen: a cycle begins when the poller stops waiting for it, and ends when the poller waits for the
next one. -/
def next (world : Cycle.World π σ) (planners : List π) (observed : Observed σ) (happening : Happening) : Observed σ :=
  let poller := observed.poller.next world planners happening
  match observed.poller.phase, poller.phase with
  | .waiting, .running _ _ => { observed with poller, start? := some poller.now }
  | .running outcome _, .waiting =>
    let start := observed.start?.getD poller.now
    { poller, executed := observed.executed ++ [⟨start, poller.now, outcome⟩] }
  | _, _ => { observed with poller }

def after (world : Cycle.World π σ) (planners : List π) (observed : Observed σ) (happenings : List Happening) :
    Observed σ := happenings.foldl (next world planners) observed

def withUnseen (observed : Observed σ) (unseen : Bool) : Observed σ :=
  { observed with poller := observed.poller.withUnseen unseen }

def unset (observed : Observed σ) : Observed σ :=
  { observed with poller := { observed.poller with signal := { observed.poller.signal with value := false } } }

variable {observed : Observed σ}

/-- As long as the poller is where it was, there is nothing to note. -/
theorem next_of_same_phase {happening : Happening}
    (h : (observed.poller.next world planners happening).phase = observed.poller.phase) :
    observed.next world planners happening =
      { observed with poller := observed.poller.next world planners happening } := by
  unfold next
  dsimp only
  rw [h]
  cases observed.poller.phase <;> rfl

/-- What happens around a poller takes time, and may change the signal. -/
theorem next_of_ne_turn (world : Cycle.World π σ) (planners : List π) (observed : Observed σ) {happening : Happening}
    (h : happening ≠ .turn) :
    ∃ now signal, observed.poller.now ≤ now ∧ observed.next world planners happening =
      { observed with poller := { observed.poller with now := now, signal := signal } } := by
  cases happening with
  | turn => exact absurd rfl h
  | pass span =>
    refine ⟨observed.poller.now + span, observed.poller.signal, Duration.le_add_right _ _, ?_⟩
    rw [next_of_same_phase rfl]
    rfl
  | send value =>
    refine ⟨observed.poller.now, observed.poller.signal.send value, le_rfl, ?_⟩
    rw [next_of_same_phase rfl]
    rfl
  | close =>
    refine ⟨observed.poller.now, observed.poller.signal.close, le_rfl, ?_⟩
    rw [next_of_same_phase rfl]
    rfl

/-- What a turn comes to. -/
inductive Turned (world : Cycle.World π σ) (planners : List π) (observed : Observed σ) : Observed σ → Prop where
  | finished {outcome : Cycle.Outcome σ} {ending : Duration} (phase : observed.poller.phase = .running outcome ending)
      (ended : ending ≤ observed.poller.now) :
      Turned world planners observed
        { poller := observed.poller.finish outcome observed.poller.now
          executed := observed.executed ++
            [⟨observed.start?.getD observed.poller.now, observed.poller.now, outcome⟩] }
  | busy {outcome : Cycle.Outcome σ} {ending : Duration} (phase : observed.poller.phase = .running outcome ending)
      (ended : ¬ ending ≤ observed.poller.now) : Turned world planners observed observed
  | began (phase : observed.poller.phase = .waiting) (due : observed.poller.due ≤ observed.poller.now)
      (unset : observed.poller.signal.value = false) (kept : observed.poller.signal.closed = false) :
      Turned world planners observed
        { observed with
          poller := (observed.poller.withUnseen false).begin world planners observed.poller.now
          start? := some observed.poller.now }
  | told (phase : observed.poller.phase = .waiting)
      (shut : observed.poller.signal.value = true ∨ observed.poller.signal.closed = true) :
      Turned world planners observed { observed with poller := (observed.poller.withUnseen false).stop }
  | early (phase : observed.poller.phase = .waiting) (shut : observed.poller.isShut = false)
      (due : ¬ observed.poller.due ≤ observed.poller.now) :
      Turned world planners observed (observed.withUnseen false)
  | gone (phase : observed.poller.phase = .stopped) : Turned world planners observed observed

theorem turned (world : Cycle.World π σ) (planners : List π) (observed : Observed σ) :
    Turned world planners observed (observed.next world planners .turn) := by
  have hnext : observed.poller.next world planners .turn = observed.poller.turn world planners := rfl
  cases hphase : observed.poller.phase with
  | stopped =>
    have hturn : observed.poller.turn world planners = observed.poller := by simp [turn, hphase]
    rw [next_of_same_phase (by rw [hnext, hturn]), hnext, hturn]
    exact .gone hphase
  | running outcome ending =>
    by_cases hover : ending ≤ observed.poller.now
    · have hturn := turn_running world planners hphase hover
      have hfinished : observed.next world planners .turn =
          { poller := observed.poller.finish outcome observed.poller.now
            executed := observed.executed ++
              [⟨observed.start?.getD observed.poller.now, observed.poller.now, outcome⟩] } := by
        unfold next
        rw [hnext, hturn]
        simp [hphase, finish]
      rw [hfinished]
      exact .finished hphase hover
    · have hturn : observed.poller.turn world planners = observed.poller := by simp [turn, hphase, hover]
      rw [next_of_same_phase (by rw [hnext, hturn]), hnext, hturn]
      exact .busy hphase hover
  | waiting =>
    have hstop (hturn : observed.poller.turn world planners = (observed.poller.withUnseen false).stop)
        (hshut : observed.poller.signal.value = true ∨ observed.poller.signal.closed = true) :
        Turned world planners observed (observed.next world planners .turn) := by
      have htold : observed.next world planners .turn =
          { observed with poller := (observed.poller.withUnseen false).stop } := by
        unfold next
        rw [hnext, hturn]
        simp [hphase, stop]
      rw [htold]
      exact .told hphase hshut
    cases hshut : observed.poller.isShut with
    | true =>
      refine hstop (turn_shut world planners hphase hshut) ?_
      simp only [isShut, Bool.or_eq_true, Bool.and_eq_true] at hshut
      exact hshut.imp And.right id
    | false =>
      by_cases hdue : observed.poller.due ≤ observed.poller.now
      · have hturn := turn_due world planners hphase hshut hdue
        cases hvalue : observed.poller.signal.value with
        | true => exact hstop (by rw [hturn, if_pos hvalue]) (.inl hvalue)
        | false =>
          have hkept : observed.poller.signal.closed = false := by simp [isShut] at hshut; exact hshut.2
          have hbegan : observed.next world planners .turn =
              { observed with
                poller := (observed.poller.withUnseen false).begin world planners observed.poller.now
                start? := some observed.poller.now } := by
            unfold next
            rw [hnext, hturn, hvalue]
            simp [hphase, begin]
          rw [hbegan]
          exact .began hphase hdue hvalue hkept
      · have hturn := turn_early world planners hphase hshut hdue
        rw [next_of_same_phase (by rw [hnext, hturn]; rfl), hnext, hturn]
        exact .early hphase hshut hdue

/-! ## One at a time -/

/-- Cycles that were executed whole, each after the one before it, and what they leave: what is remembered, the state and
the moment of the last ending. -/
inductive OneAtATime (world : Cycle.World π σ) (planners : List π) (state : σ) :
    List (Executed σ) → Cycle.Applied → σ → Duration → Prop where
  | none : OneAtATime world planners state [] Cycle.Applied.empty state Duration.zero
  | snoc {executed : List (Executed σ)} {applied : Cycle.Applied} {before : σ} {free : Duration} {cycle : Executed σ}
      (earlier : OneAtATime world planners state executed applied before free) (free_le : free ≤ cycle.start)
      (outcome_eq : cycle.outcome = Cycle.run world planners applied before)
      (whole : cycle.start + (world.now cycle.outcome.state - world.now before) ≤ cycle.ending) :
      OneAtATime world planners state (executed ++ [cycle]) cycle.outcome.applied cycle.outcome.state cycle.ending

namespace OneAtATime

variable {executed : List (Executed σ)} {applied : Cycle.Applied} {ending : σ} {free : Duration}

theorem ending_le (h : OneAtATime world planners state executed applied ending free) :
    ∀ cycle ∈ executed, cycle.ending ≤ free := by
  induction h with
  | none => simp
  | @snoc executed _ _ _ last _ hfree _ hwhole ih =>
    have hlast : last.start ≤ last.ending := le_trans (Duration.le_add_right _ _) hwhole
    intro cycle hcycle
    rcases List.mem_append.mp hcycle with hearlier | hself
    · exact le_trans (ih cycle hearlier) (le_trans hfree hlast)
    · exact le_of_eq (congrArg Executed.ending (List.mem_singleton.mp hself))

end OneAtATime

/-- The cycle under way, if there is one, began after the last one had ended, and it is a cycle that goes on from what
that one left. -/
def UnderWay (world : Cycle.World π σ) (planners : List π) (free : Duration) (observed : Observed σ) : Prop :=
  match observed.poller.phase with
  | .running outcome ending =>
    outcome = Cycle.run world planners observed.poller.applied observed.poller.state ∧
      observed.poller.begun = observed.executed.length + 1 ∧
      ∃ start, observed.start? = some start ∧ free ≤ start ∧ start ≤ observed.poller.now ∧
        ending = start + (world.now outcome.state - world.now observed.poller.state)
  | .waiting | .stopped => observed.start? = none ∧ observed.poller.begun = observed.executed.length

/-- All that was seen of the poller is cycles executed one at a time, and at most one that is under way. -/
def Whole (world : Cycle.World π σ) (planners : List π) (state : σ) (observed : Observed σ) : Prop :=
  ∃ free, OneAtATime world planners state observed.executed observed.poller.applied observed.poller.state free ∧
    free ≤ observed.poller.now ∧ UnderWay world planners free observed

def start (poller : Poller σ) : Observed σ := { poller }

theorem UnderWay.idle {free : Duration} (h : UnderWay world planners free observed)
    (hphase : ∀ outcome ending, observed.poller.phase ≠ .running outcome ending) :
    observed.start? = none ∧ observed.poller.begun = observed.executed.length := by
  unfold UnderWay at h
  split at h
  next outcome ending hrunning => exact absurd hrunning (hphase outcome ending)
  all_goals exact h

theorem UnderWay.running {free ending : Duration} {outcome : Cycle.Outcome σ}
    (h : UnderWay world planners free observed) (hphase : observed.poller.phase = .running outcome ending) :
    outcome = Cycle.run world planners observed.poller.applied observed.poller.state ∧
      observed.poller.begun = observed.executed.length + 1 ∧
      ∃ start, observed.start? = some start ∧ free ≤ start ∧ start ≤ observed.poller.now ∧
        ending = start + (world.now outcome.state - world.now observed.poller.state) := by
  simpa only [UnderWay, hphase] using h

theorem Whole.turn (h : Whole world planners state observed) :
    Whole world planners state (observed.next world planners .turn) := by
  obtain ⟨free, hone, hfree, hunder⟩ := h
  have hafter := turned world planners observed
  generalize observed.next world planners .turn = after at hafter
  cases hafter with
  | finished hphase hover =>
    obtain ⟨houtcome, hbegun, start, hstart, hle, -, hending⟩ := hunder.running hphase
    refine ⟨observed.poller.now, ?_, le_rfl, rfl, ?_⟩
    · refine .snoc hone ?_ houtcome ?_
      · simpa only [hstart, Option.getD_some] using hle
      · simpa only [hstart, Option.getD_some, ← hending] using hover
    · simpa [finish] using hbegun
  | busy | gone => exact ⟨free, hone, hfree, hunder⟩
  | began hphase =>
    obtain ⟨-, hbegun⟩ := hunder.idle (by simp [hphase])
    refine ⟨free, hone, hfree, rfl, congrArg (· + 1) hbegun, observed.poller.now, rfl, hfree, le_rfl, rfl⟩
  | told hphase => exact ⟨free, hone, hfree, hunder.idle (by simp [hphase])⟩
  | early hphase => exact ⟨free, hone, hfree, hunder⟩

theorem Whole.next (h : Whole world planners state observed) (happening : Happening) :
    Whole world planners state (observed.next world planners happening) := by
  by_cases hturn : happening = .turn
  · rw [hturn]
    exact h.turn
  · obtain ⟨free, hone, hfree, hunder⟩ := h
    obtain ⟨now, signal, hlater, hnext⟩ := next_of_ne_turn world planners observed hturn
    rw [hnext]
    refine ⟨free, hone, le_trans hfree hlater, ?_⟩
    cases hphase : observed.poller.phase with
    | waiting | stopped => simpa only [UnderWay, hphase] using hunder
    | running outcome ending =>
      obtain ⟨houtcome, hbegun, start, hstart, hle, hge, hending⟩ := hunder.running hphase
      simp only [UnderWay, hphase]
      exact ⟨houtcome, hbegun, start, hstart, hle, le_trans hge hlater, hending⟩

theorem Whole.after (h : Whole world planners state observed) (happenings : List Happening) :
    Whole world planners state (observed.after world planners happenings) := by
  induction happenings generalizing observed with
  | nil => exact h
  | cons happening rest ih => exact ih (h.next happening)

/-! ## From one cycle to the next -/

def wait (observed : Observed σ) (span : Duration) : Observed σ :=
  { observed with poller := observed.poller.withNow (observed.poller.now + span) }

/-- The signal is set and left so, or its sending side is gone. -/
def LeftSet (signal : Shutdown) (later : List Happening) : Prop :=
  signal.closed = true ∨ signal.value = true ∧ .send false ∉ later

theorem LeftSet.next (world : Cycle.World π σ) (planners : List π) {happening : Happening} {rest : List Happening}
    (h : LeftSet observed.poller.signal (happening :: rest)) :
    LeftSet (observed.next world planners happening).poller.signal rest ∧
      (observed.next world planners happening).poller.begun = observed.poller.begun := by
  cases happening with
  | turn =>
    have hrest : LeftSet observed.poller.signal rest := h.imp id (And.imp id (mt (List.mem_cons_of_mem _)))
    have hafter := turned world planners observed
    generalize observed.next world planners .turn = after at hafter
    cases hafter with
    | finished | busy | told | early | gone => exact ⟨hrest, rfl⟩
    | began _ _ hunset hkept =>
      rcases h with hclosed | ⟨hset, -⟩
      · cases hclosed.symm.trans hkept
      · cases hset.symm.trans hunset
  | pass span =>
    rw [next_of_same_phase rfl]
    exact ⟨h.imp id (And.imp id (mt (List.mem_cons_of_mem _))), rfl⟩
  | close =>
    rw [next_of_same_phase rfl]
    exact ⟨.inl rfl, rfl⟩
  | send value =>
    rw [next_of_same_phase rfl]
    refine ⟨?_, rfl⟩
    show LeftSet (observed.poller.signal.send value) rest
    unfold Shutdown.send
    split
    next hclosed => exact .inl hclosed
    next hopen =>
      rcases h with hclosed | ⟨-, hleft⟩
      · exact absurd hclosed hopen
      · rw [List.mem_cons, not_or] at hleft
        cases value with
        | false => exact absurd rfl hleft.1
        | true => exact .inr ⟨rfl, hleft.2⟩

/-- A signal that is set is still to be looked at, unless the poller has stopped or is about to begin a cycle. -/
def Alert (observed : Observed σ) : Prop :=
  observed.poller.signal.value = true → observed.poller.signal.unseen = true ∨ observed.poller.phase = .stopped ∨
    observed.poller.phase = .waiting ∧ observed.poller.due ≤ observed.poller.now

theorem Alert.next (world : Cycle.World π σ) (planners : List π) (h : Alert observed) (happening : Happening) :
    Alert (observed.next world planners happening) := by
  cases happening with
  | turn =>
    have hafter := turned world planners observed
    generalize observed.next world planners .turn = after at hafter
    cases hafter with
    | finished hphase =>
      intro hset
      rcases h hset with hunseen | hstopped | ⟨hwaiting, -⟩
      · exact .inl hunseen
      · cases hstopped.symm.trans hphase
      · cases hwaiting.symm.trans hphase
    | busy | gone => exact h
    | began _ _ hunset =>
      intro hset
      cases hunset.symm.trans hset
    | told => exact fun _ => .inr (.inl rfl)
    | early hphase hshut hdue =>
      intro hset
      rcases h hset with hunseen | hstopped | ⟨-, hle⟩
      · have hset : observed.poller.signal.value = true := hset
        simp [isShut, hunseen, hset] at hshut
      · cases hstopped.symm.trans hphase
      · exact absurd hle hdue
  | pass span =>
    rw [next_of_same_phase rfl]
    intro hset
    exact (h hset).imp id (Or.imp id (And.imp id fun hle => le_trans hle (Duration.le_add_right _ _)))
  | close =>
    rw [next_of_same_phase rfl]
    exact h
  | send value =>
    rw [next_of_same_phase rfl]
    show (observed.poller.signal.send value).value = true → (observed.poller.signal.send value).unseen = true ∨ _
    unfold Shutdown.send
    split
    next => exact h
    next => exact fun _ => .inl rfl

theorem Alert.after (h : Alert observed) (happenings : List Happening) :
    Alert (observed.after world planners happenings) := by
  induction happenings generalizing observed with
  | nil => exact h
  | cons happening rest ih => exact ih (h.next world planners happening)

end Observed

end OverlayHost.Poller
