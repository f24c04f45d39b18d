import OverlayHost.Proofs.Duration
import OverlayHost.Shutdown

/-!
# Listening for the shutdown signal

What the sending side of a shutdown signal does over time, and when a listener hears of it who only cares whether the
signal is set. Such a listener reads the value first and waits for the next one if it is not set; when the sending side is
gone there is nothing more to wait for.

`announces_of_setFrom` and `announces_of_neverSet` say what all that comes to: the moment from which the signal is set for
good, if there is one. Whatever else was sent before, and whether the sending side has gone, makes no difference.
-/

set_option autoImplicit false

namespace OverlayHost.Shutdown

inductive Event where
  | send (value : Bool)
  | close
deriving DecidableEq

/-- What the sending side does, and when, in the order of time. -/
abbrev Timeline := List (Duration × Event)

def receive (signal : Shutdown) : Event → Shutdown
  | .send value => signal.send value
  | .close => signal.close

/-- Whether something is done by a moment; `first` says whether it is if it is done at that very moment. -/
def isBy (moment : Duration) (first : Bool) (done : Duration × Event) : Bool :=
  done.1 < moment || (done.1 = moment && first)

/-- Whether the signal is set at a moment. -/
def isTriggered (signal : Shutdown) (timeline : Timeline) (now : Duration) (first : Bool) : Bool :=
  ((timeline.takeWhile (isBy now first)).foldl (fun signal done => signal.receive done.2) signal).value

/-- When a listener that begins to listen at some moment hears that the signal is set. -/
def triggered (signal : Shutdown) (start : Duration) : Timeline → Option Duration
  | [] => if signal.value then some start else none
  | (moment, event) :: rest =>
    if moment ≤ start then triggered (signal.receive event) start rest
    else if signal.value then some start
    else match event with
      | .send value => triggered (signal.send value) moment rest
      | .close => none

/-- The signal is set at a moment, after nothing but false was sent, and left so. -/
def SetFrom (signal : Shutdown) (timeline : Timeline) (moment : Duration) : Prop :=
  signal.value = false ∧ signal.closed = false ∧ ∃ earlier later, timeline = earlier ++ (moment, .send true) :: later ∧
    (∀ done ∈ earlier, done.1 ≤ moment ∧ done.2 = .send false) ∧ ∀ done ∈ later, done.2 ≠ .send false

/-- The signal is not set, and true is never sent. -/
def NeverSet (signal : Shutdown) (timeline : Timeline) : Prop :=
  signal.value = false ∧ ∀ done ∈ timeline, done.2 ≠ .send true

/-- What a listener hears is that the signal is set from a moment on, or never. -/
structure Announces (signal : Shutdown) (timeline : Timeline) (shutdown : Moment) : Prop where
  isTriggered_eq : ∀ now first, signal.isTriggered timeline now first = shutdown.precedes now first
  triggered_eq : ∀ start, (∀ moment, shutdown = some moment → start ≤ moment) →
    signal.triggered start timeline = shutdown

variable {signal : Shutdown} {timeline : Timeline}

/-! ## A signal that stays as it is -/

theorem value_receive_of_ne {event : Event} {value : Bool} (hvalue : signal.value = value)
    (hevent : event ≠ .send (!value)) : (signal.receive event).value = value := by
  cases event with
  | close => exact hvalue
  | send sent =>
    have hsent : sent = value := by cases sent <;> cases value <;> simp_all
    simp only [receive, send]
    split
    · exact hvalue
    · exact hsent

theorem value_foldl_of_ne {value : Bool} (hvalue : signal.value = value)
    (hevents : ∀ done ∈ timeline, done.2 ≠ .send (!value)) :
    (timeline.foldl (fun signal done => signal.receive done.2) signal).value = value := by
  induction timeline generalizing signal with
  | nil => exact hvalue
  | cons done rest ih =>
    refine ih (value_receive_of_ne hvalue (hevents done List.mem_cons_self)) fun later hlater => ?_
    exact hevents later (List.mem_cons_of_mem _ hlater)

theorem triggered_nil (signal : Shutdown) (start : Duration) :
    signal.triggered start [] = if signal.value then some start else none :=
  rfl

theorem triggered_cons (signal : Shutdown) (start moment : Duration) (event : Event) (rest : Timeline) :
    signal.triggered start ((moment, event) :: rest) =
      if moment ≤ start then (signal.receive event).triggered start rest
      else if signal.value then some start
      else match event with
        | .send value => (signal.send value).triggered moment rest
        | .close => none :=
  rfl

theorem triggered_of_set (hset : signal.value = true) (hleft : ∀ done ∈ timeline, done.2 ≠ .send false)
    (start : Duration) : signal.triggered start timeline = some start := by
  induction timeline generalizing signal with
  | nil => rw [triggered_nil, hset, if_pos rfl]
  | cons done rest ih =>
    obtain ⟨moment, event⟩ := done
    have hrest : ∀ later ∈ rest, later.2 ≠ .send false := fun later hlater => hleft later (List.mem_cons_of_mem _ hlater)
    have hnext : (signal.receive event).value = true :=
      value_receive_of_ne hset (hleft (moment, event) List.mem_cons_self)
    rw [triggered_cons, hset, if_pos rfl]
    split
    · exact ih hnext hrest
    · rfl

theorem triggered_of_neverSet (h : NeverSet signal timeline) (start : Duration) :
    signal.triggered start timeline = none := by
  obtain ⟨hunset, hnever⟩ := h
  induction timeline generalizing signal start with
  | nil => rw [triggered_nil, hunset, if_neg Bool.false_ne_true]
  | cons done rest ih =>
    obtain ⟨moment, event⟩ := done
    have hrest : ∀ later ∈ rest, later.2 ≠ .send true := fun later hlater => hnever later (List.mem_cons_of_mem _ hlater)
    have hnext : (signal.receive event).value = false :=
      value_receive_of_ne hunset (hnever (moment, event) List.mem_cons_self)
    rw [triggered_cons, hunset, if_neg Bool.false_ne_true]
    split
    · exact ih start hnext hrest
    · cases event with
      | close => rfl
      | send value => exact ih moment hnext hrest

/-- Sending false any number of times, and going, comes to the same as no signal. -/
theorem announces_of_neverSet (h : NeverSet signal timeline) : Announces signal timeline none where
  isTriggered_eq _ _ := value_foldl_of_ne h.1 fun done hdone => h.2 done ((List.takeWhile_prefix _).subset hdone)
  triggered_eq start _ := triggered_of_neverSet h start

/-! ## A signal that is set and left so -/

theorem value_send (value : Bool) (hopen : signal.closed = false) :
    (signal.send value).value = value ∧ (signal.send value).closed = false := by
  simp [send, hopen]

theorem triggered_of_set_later {moment start : Duration} {earlier later : Timeline} (hunset : signal.value = false)
    (hopen : signal.closed = false) (hearlier : ∀ done ∈ earlier, done.1 ≤ moment ∧ done.2 = .send false)
    (hlater : ∀ done ∈ later, done.2 ≠ .send false) (hstart : start ≤ moment) :
    signal.triggered start (earlier ++ (moment, .send true) :: later) = some moment := by
  induction earlier generalizing signal start with
  | nil =>
    have hset : (signal.send true).value = true := (value_send true hopen).1
    rw [List.nil_append, triggered_cons, hunset, if_neg Bool.false_ne_true]
    split
    next hle =>
      rw [le_antisymm hstart hle]
      exact triggered_of_set hset hlater moment
    next => exact triggered_of_set hset hlater moment
  | cons done rest ih =>
    obtain ⟨sent, event⟩ := done
    obtain ⟨hle, hevent⟩ := hearlier (sent, event) List.mem_cons_self
    obtain rfl : event = .send false := hevent
    have hrest : ∀ done ∈ rest, done.1 ≤ moment ∧ done.2 = .send false := fun done hdone =>
      hearlier done (List.mem_cons_of_mem _ hdone)
    obtain ⟨hnext, hkept⟩ := value_send false hopen
    rw [List.cons_append, triggered_cons, hunset, if_neg Bool.false_ne_true]
    split
    · exact ih hnext hkept hrest hstart
    · exact ih hnext hkept hrest hle

theorem isBy_of_le {sent moment now : Duration} {first : Bool} {event later : Event} (hle : sent ≤ moment)
    (hnot : isBy now first (sent, event) = false) : isBy now first (moment, later) = false := by
  simp only [isBy, Bool.or_eq_false_iff, decide_eq_false_iff_not, Bool.and_eq_false_imp, decide_eq_true_eq] at hnot ⊢
  obtain ⟨hearly, htie⟩ := hnot
  refine ⟨fun hlate => hearly (lt_of_le_of_lt hle hlate), ?_⟩
  rintro rfl
  exact htie (le_antisymm hle (not_lt.mp hearly))

theorem isTriggered_of_set (hset : signal.value = true) (hleft : ∀ done ∈ timeline, done.2 ≠ .send false)
    (now : Duration) (first : Bool) : signal.isTriggered timeline now first = true :=
  value_foldl_of_ne hset fun done hdone => hleft done ((List.takeWhile_prefix _).subset hdone)

theorem isTriggered_of_set_later {moment now : Duration} {first : Bool} {earlier later : Timeline}
    (hunset : signal.value = false) (hopen : signal.closed = false)
    (hearlier : ∀ done ∈ earlier, done.1 ≤ moment ∧ done.2 = .send false)
    (hlater : ∀ done ∈ later, done.2 ≠ .send false) :
    signal.isTriggered (earlier ++ (moment, .send true) :: later) now first = isBy now first (moment, .send true) := by
  induction earlier generalizing signal with
  | nil =>
    rw [List.nil_append, isTriggered, List.takeWhile_cons]
    split
    next hby =>
      rw [hby]
      exact isTriggered_of_set (value_send true hopen).1 hlater now first
    next hby =>
      rw [Bool.not_eq_true] at hby
      rw [hby]
      exact hunset
  | cons done rest ih =>
    obtain ⟨sent, event⟩ := done
    obtain ⟨hle, hevent⟩ := hearlier (sent, event) List.mem_cons_self
    obtain rfl : event = .send false := hevent
    have hrest : ∀ done ∈ rest, done.1 ≤ moment ∧ done.2 = .send false := fun done hdone =>
      hearlier done (List.mem_cons_of_mem _ hdone)
    obtain ⟨hnext, hkept⟩ := value_send false hopen
    rw [List.cons_append, isTriggered, List.takeWhile_cons]
    split
    · exact ih hnext hkept hrest
    next hby =>
      -- what is sent later is not sent by now either
      have hnot : isBy now first (moment, .send true) = false := by
        rw [Bool.not_eq_true] at hby
        exact isBy_of_le hle hby
      rw [hnot]
      exact hunset

/-- A signal that is set and left so announces the moment at which it was set. -/
theorem announces_of_setFrom {moment : Duration} (h : SetFrom signal timeline moment) :
    Announces signal timeline (some moment) := by
  obtain ⟨hunset, hopen, earlier, later, rfl, hearlier, hlater⟩ := h
  exact ⟨fun now first => isTriggered_of_set_later hunset hopen hearlier hlater,
    fun start hstart => triggered_of_set_later hunset hopen hearlier hlater (hstart moment rfl)⟩

end OverlayHost.Shutdown
