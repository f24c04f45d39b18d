import OverlayHost.Metrics.Emitter
import OverlayHost.Metrics.Line
import Mathlib.Data.List.Infix

/-!
# Every accepted line is handed on once

Reports come from any number of handles while the emitter takes one step after another. A line is accepted if it is
put into the queue. Up to its end the emitter holds every accepted line just once and in order: in a text handed to
the socket, in the batch, or in the queue. `delivered_after` says so of every interleaving, and that an emitter that
has ended has handed on each line accepted before it was told to end.

Shutting down is not one step: lines are taken while there are any, and reports may come in between, also after the
last line was taken. `emitter_after_shutdown` says what it comes to when no report does.
-/

set_option autoImplicit false

namespace OverlayHost.Metrics

/-! ## Joined lines -/

/-- Lines with line feeds between them. -/
def joined (lines : List String) : String := "\n".intercalate lines

theorem joined_append {first second : List String} (hfirst : first ≠ []) (hsecond : second ≠ []) :
    joined (first ++ second) = joined first ++ "\n" ++ joined second :=
  String.intercalate_append_of_ne_nil hfirst hsecond

theorem joined_eq_empty_iff {lines : List String} (h : ∀ line ∈ lines, line ≠ "") :
    joined lines = "" ↔ lines = [] := by
  constructor
  · intro hempty
    cases lines with
    | nil => rfl
    | cons line rest =>
      have hline : line ≠ "" := h line (by simp)
      cases rest with
      | nil => simp [joined] at hempty; contradiction
      | cons second rest => simp [joined] at hempty
  · rintro rfl
    rfl

/-- Joining groups that have been joined already is joining all their lines. -/
theorem joined_map_joined_append {groups : List (List String)} (h : ∀ group ∈ groups, group ≠ [])
    (rest : List String) : joined (groups.map joined ++ rest) = joined (groups.flatten ++ rest) := by
  induction groups with
  | nil => rfl
  | cons group others ih =>
    have hgroup : group ≠ [] := h group (by simp)
    have hothers := ih fun other hother => h other (by simp [hother])
    -- a line feed follows the group only if there is something after it
    by_cases hlast : others.map joined ++ rest = []
    · obtain ⟨hnone, rfl⟩ := List.append_eq_nil_iff.mp hlast
      obtain rfl := List.map_eq_nil_iff.mp hnone
      simp [joined]
    · have hflat : others.flatten ++ rest ≠ [] := by
        intro hnil
        obtain ⟨hflat, rfl⟩ := List.append_eq_nil_iff.mp hnil
        apply hlast
        cases others with
        | nil => rfl
        | cons other others =>
          have hother : other ≠ [] := h other (by simp)
          simp at hflat
          exact absurd hflat.1 hother
      have hsplit : (group :: others).map joined ++ rest = [joined group] ++ (others.map joined ++ rest) := by simp
      rw [hsplit, joined_append (by simp) hlast, hothers, List.flatten_cons, List.append_assoc,
        joined_append hgroup hflat]
      simp [joined]

theorem Metric.line_ne_empty (stem : String) (metric : Metric) : metric.line stem ≠ "" := by
  intro hempty
  cases metric with
  | counter name => simp [Metric.line, toString] at hempty
  | duration name span => simp [Metric.line, toString] at hempty

/-! ## What the emitter carries -/

namespace Emitter

variable {emitter : Emitter} {lines : List String} {line : String}

/-- Whether the emitter has taken just these lines: some are in texts handed to the socket, each text being a group of
them, and the others are in the batch. -/
def Carries (emitter : Emitter) (lines : List String) : Prop :=
  ∃ (groups : List (List String)) (current : List String), emitter.handed = groups.map joined ∧
    (∀ group ∈ groups, group ≠ []) ∧ emitter.batch = joined current ∧ (∀ line ∈ current, line ≠ "") ∧
    lines = groups.flatten ++ current

theorem Carries.congr {other : Emitter} (h : emitter.Carries lines) (hhanded : other.handed = emitter.handed)
    (hbatch : other.batch = emitter.batch) : other.Carries lines := by
  unfold Carries
  rw [hhanded, hbatch]
  exact h

theorem flush_batch (emitter : Emitter) : emitter.flush.batch = "" := by
  unfold flush
  split
  next hempty => exact hempty
  next => rfl

@[simp] theorem flush_queue (emitter : Emitter) : emitter.flush.queue = emitter.queue := by
  unfold flush
  split <;> rfl

@[simp] theorem push_queue (emitter : Emitter) (line : String) : (emitter.push line).queue = emitter.queue := by
  unfold push
  dsimp only
  split <;> simp

@[simp] theorem flush_ended (emitter : Emitter) : emitter.flush.ended = emitter.ended := by
  unfold flush
  split <;> rfl

@[simp] theorem push_ended (emitter : Emitter) (line : String) : (emitter.push line).ended = emitter.ended := by
  unfold push
  dsimp only
  split <;> simp

theorem receive_cons {rest : List String} (hopen : emitter.ended = false) (hqueue : emitter.queue = line :: rest) :
    emitter.receive = { emitter with queue := rest }.push line := by
  simp [receive, hopen, hqueue]

/-- An emitter with nothing to receive stays as it is, or ends with its batch handed on. -/
theorem receive_nil (hqueue : emitter.queue = []) :
    emitter.receive = emitter ∨ emitter.receive = { emitter.flush with ended := true } := by
  unfold receive
  split
  next => exact .inl rfl
  next =>
    rw [hqueue]
    dsimp only
    split
    next => exact .inl rfl
    next => exact .inr rfl

theorem Carries.flush (h : emitter.Carries lines) : emitter.flush.Carries lines := by
  obtain ⟨groups, current, hhanded, hgroups, hbatch, hcurrent, rfl⟩ := h
  unfold Emitter.flush
  split
  next => exact ⟨groups, current, hhanded, hgroups, hbatch, hcurrent, rfl⟩
  next hfull =>
    have hsome : current ≠ [] := by
      intro hnil
      rw [hbatch, joined_eq_empty_iff hcurrent] at hfull
      exact hfull hnil
    refine ⟨groups ++ [current], [], ?_, ?_, rfl, by simp, by simp⟩
    · simp [hhanded, hbatch]
    · intro group hgroup
      rcases List.mem_append.mp hgroup with hgroup | hgroup
      · exact hgroups group hgroup
      · rw [List.mem_singleton.mp hgroup]
        exact hsome

/-- A line is added to the batch at its end. -/
theorem Carries.add (h : emitter.Carries lines) (hline : line ≠ "") {batch : String}
    (hbatch : batch = if emitter.batch = "" then line else emitter.batch ++ "\n" ++ line) :
    { emitter with batch }.Carries (lines ++ [line]) := by
  obtain ⟨groups, current, hhanded, hgroups, hold, hcurrent, rfl⟩ := h
  have hmore : ∀ other ∈ current ++ [line], other ≠ "" := by
    intro other hother
    rcases List.mem_append.mp hother with hother | hother
    · exact hcurrent other hother
    · rw [List.mem_singleton.mp hother]
      exact hline
  refine ⟨groups, current ++ [line], hhanded, hgroups, ?_, hmore, by simp⟩
  show batch = joined (current ++ [line])
  by_cases hnil : current = []
  · simp [hbatch, hold, hnil, joined]
  · have hfull : joined current ≠ "" := (joined_eq_empty_iff hcurrent).not.mpr hnil
    rw [joined_append hnil (by simp), hbatch, hold, if_neg hfull]
    simp [joined]

theorem Carries.push (h : emitter.Carries lines) (hline : line ≠ "") : (emitter.push line).Carries (lines ++ [line]) := by
  unfold Emitter.push
  dsimp only
  split
  next => exact h.flush.add hline rfl
  next => exact h.add hline rfl

/-- An emitter that carries lines and has more of them in its queue still does after it has received one of those. -/
theorem Carries.receive (h : emitter.Carries lines) (hqueue : ∀ line ∈ emitter.queue, line ≠ "") :
    ∃ more, emitter.receive.Carries more ∧ lines ++ emitter.queue = more ++ emitter.receive.queue := by
  by_cases hended : emitter.ended = true
  · have hstill : emitter.receive = emitter := by simp [Emitter.receive, hended]
    rw [hstill]
    exact ⟨lines, h, rfl⟩
  have hopen : emitter.ended = false := by simpa using hended
  cases heq : emitter.queue with
  | nil =>
    rcases receive_nil heq with hstill | hend
    · rw [hstill, heq]
      exact ⟨lines, h, rfl⟩
    · rw [hend]
      exact ⟨lines, h.flush.congr rfl rfl, by simp [heq]⟩
  | cons line rest =>
    have hline : line ≠ "" := hqueue line (by simp [heq])
    have hsame : { emitter with queue := rest }.Carries lines := h.congr rfl rfl
    rw [receive_cons hopen heq]
    exact ⟨lines ++ [line], hsame.push hline, by simp⟩

/-- An emitter that ends by receiving has an empty queue and batch. -/
theorem empty_of_receive_ended (hopen : emitter.ended = false) (h : emitter.receive.ended = true) :
    emitter.queue = [] ∧ emitter.receive.batch = "" := by
  cases hqueue : emitter.queue with
  | nil =>
    rcases receive_nil hqueue with hstill | hend
    · rw [hstill, hopen] at h
      cases h
    · rw [hend]
      exact ⟨rfl, emitter.flush_batch⟩
  | cons line rest =>
    rw [receive_cons hopen hqueue, push_ended] at h
    rw [hopen] at h
    cases h

/-- Whether a line that is reported now is put into the queue. -/
def accepts (emitter : Emitter) : Bool :=
  !emitter.ended && emitter.connected && emitter.queue.length < queueCapacity

theorem report_of_accepts (h : emitter.accepts = true) (line : String) :
    emitter.report line = { emitter with queue := emitter.queue ++ [line] } := by
  simp only [accepts, Bool.and_eq_true, Bool.not_eq_true', decide_eq_true_eq] at h
  obtain ⟨⟨hended, hconnected⟩, hroom⟩ := h
  have hfull : ¬ emitter.queue.length ≥ queueCapacity := by omega
  simp [report, hended, hconnected, hfull]

theorem report_of_not_accepts (h : emitter.accepts = false) (line : String) : emitter.report line = emitter := by
  have hclosed : (emitter.ended || !emitter.connected || emitter.queue.length ≥ queueCapacity) = true := by
    by_contra hopen
    simp only [Bool.not_eq_true, Bool.or_eq_false_iff, Bool.not_eq_false', decide_eq_false_iff_not] at hopen
    obtain ⟨⟨hended, hconnected⟩, hroom⟩ := hopen
    simp [accepts, hended, hconnected] at h
    omega
  unfold report
  rw [if_pos hclosed]

end Emitter

/-! ## Reports between steps -/

/-- How far the loop of the emitter has come. -/
inductive Phase where
  /-- It waits for lines, for ticks and for being told to end. -/
  | waiting
  /-- It has been told to end and takes what is in the queue. -/
  | draining
  /-- It has found the queue empty since; only the last batch is left to hand on. -/
  | closing
deriving DecidableEq

/-- What happens to an emitter: reports, by whatever handle, and the steps that it takes itself. -/
inductive Happening where
  | report (metric : Metric)
  /-- The last handle is dropped. -/
  | disconnect
  /-- A line is received, or it is noticed that none will come any more. -/
  | receive
  | tick
  /-- It is noticed that shutdown was signalled. -/
  | shutdown
  /-- After that, a line is taken out of the queue, or it is noticed that there is none. -/
  | take
  /-- The loop has been left: the last batch is handed on. -/
  | finish

/-- An emitter at work, with the lines that were accepted. -/
structure Delivery where
  emitter : Emitter := {}
  phase : Phase := .waiting
  /-- The lines accepted so far, in order. -/
  accepted : List String := []
  /-- Those of them accepted before the emitter left off waiting. -/
  due : List String := []

namespace Delivery

variable {delivery : Delivery}

/-- A line is reported. -/
def report (delivery : Delivery) (line : String) : Delivery :=
  if delivery.emitter.accepts then
    { delivery with
      emitter := delivery.emitter.report line
      accepted := delivery.accepted ++ [line]
      due := if delivery.phase = .waiting then delivery.due ++ [line] else delivery.due }
  else { delivery with emitter := delivery.emitter.report line }

/-- Lets something happen. What cannot happen in the phase at hand changes nothing. -/
def step (stem : String) (delivery : Delivery) : Happening → Delivery
  | .report metric => delivery.report (metric.line stem)
  | .disconnect => { delivery with emitter := delivery.emitter.disconnect }
  | .receive =>
    if delivery.phase = .waiting then { delivery with emitter := delivery.emitter.receive } else delivery
  | .tick => if delivery.phase = .waiting then { delivery with emitter := delivery.emitter.tick } else delivery
  | .shutdown =>
    if delivery.phase = .waiting && !delivery.emitter.ended then { delivery with phase := .draining } else delivery
  | .take =>
    if delivery.phase = .draining then
      if delivery.emitter.queue = [] then { delivery with phase := .closing }
      else { delivery with emitter := delivery.emitter.receive }
    else delivery
  | .finish =>
    if delivery.phase = .closing then { delivery with emitter := { delivery.emitter.flush with ended := true } }
    else delivery

/-- Lets things happen one after the other. -/
def after (stem : String) (delivery : Delivery) (happenings : List Happening) : Delivery :=
  happenings.foldl (step stem) delivery

/-- What holds between any two steps. -/
structure Sound (delivery : Delivery) : Prop where
  solid : ∀ line ∈ delivery.accepted, line ≠ ""
  /-- Each accepted line has been taken or is in the queue, and what was due has been taken by the end. -/
  carries : ∃ taken, delivery.emitter.Carries taken ∧ delivery.accepted = taken ++ delivery.emitter.queue ∧
    (delivery.phase = .closing → delivery.due <+: taken)
  due : delivery.due <+: delivery.accepted
  waiting : delivery.phase = .waiting → delivery.due = delivery.accepted
  ended : delivery.emitter.ended = true → delivery.emitter.batch = "" ∧
    (delivery.phase = .closing ∨ delivery.phase = .waiting ∧ delivery.emitter.queue = [])

theorem sound_initial : Sound {} where
  solid := by simp
  carries := ⟨[], ⟨[], [], rfl, by simp, rfl, by simp, rfl⟩, rfl, by simp⟩
  due := List.prefix_rfl
  waiting := fun _ => rfl
  ended := by simp

theorem Sound.report (h : Sound delivery) {line : String} (hline : line ≠ "") : Sound (delivery.report line) := by
  unfold Delivery.report
  split
  next haccepts =>
    have hopen : delivery.emitter.ended = false := by
      simp [Emitter.accepts] at haccepts
      exact haccepts.1.1
    rw [Emitter.report_of_accepts haccepts]
    obtain ⟨taken, hcarries, haccepted, htaken⟩ := h.carries
    refine ⟨?_, ⟨taken, hcarries.congr rfl rfl, ?_, ?_⟩, ?_, ?_, ?_⟩
    · intro other hother
      rcases List.mem_append.mp hother with hother | hother
      · exact h.solid other hother
      · rw [List.mem_singleton.mp hother]
        exact hline
    · simp [haccepted]
    · intro hclosing
      simp at hclosing
      simp [hclosing, htaken hclosing]
    · by_cases hwaiting : delivery.phase = .waiting
      · simp [hwaiting, h.waiting hwaiting]
      · simp only [hwaiting, if_false]
        exact h.due.trans (List.prefix_append _ _)
    · intro hwaiting
      simp at hwaiting
      simp [hwaiting, h.waiting hwaiting]
    · intro hended
      simp [hopen] at hended
  next hnot =>
    rw [Emitter.report_of_not_accepts (by simpa using hnot)]
    exact h

/-- A step that the emitter takes while it waits or drains. -/
theorem Sound.receive (h : Sound delivery) (hphase : delivery.phase ≠ .closing)
    (hdraining : delivery.phase = .draining → delivery.emitter.queue ≠ []) :
    Sound { delivery with emitter := delivery.emitter.receive } := by
  obtain ⟨taken, hcarries, haccepted, -⟩ := h.carries
  have hqueue : ∀ line ∈ delivery.emitter.queue, line ≠ "" := by
    intro line hline
    apply h.solid
    simp [haccepted, hline]
  obtain ⟨more, hmore, hsame⟩ := hcarries.receive hqueue
  refine ⟨h.solid, ⟨more, hmore, haccepted.trans hsame, fun hclosing => absurd hclosing hphase⟩, h.due, h.waiting, ?_⟩
  intro hended
  show delivery.emitter.receive.batch = "" ∧ (_ ∨ _)
  cases hbefore : delivery.emitter.ended with
  | true =>
    have hstill : delivery.emitter.receive = delivery.emitter := by simp [Emitter.receive, hbefore]
    rw [hstill]
    exact h.ended hbefore
  | false =>
    -- an emitter that drains does not receive from an empty queue, so this one waits
    obtain ⟨hempty, hbatch⟩ := Emitter.empty_of_receive_ended hbefore hended
    refine ⟨hbatch, .inr ⟨?_, ?_⟩⟩
    · cases hnow : delivery.phase with
      | waiting => rfl
      | draining => exact absurd hempty (hdraining hnow)
      | closing => exact absurd hnow hphase
    · rcases Emitter.receive_nil hempty with hstill | hend
      · rw [hstill, hempty]
      · rw [hend]
        simp [hempty]

theorem Sound.tick (h : Sound delivery) : Sound { delivery with emitter := delivery.emitter.tick } := by
  obtain ⟨taken, hcarries, haccepted, htaken⟩ := h.carries
  unfold Emitter.tick
  split
  next => exact h
  next hopen =>
    refine ⟨h.solid, ⟨taken, hcarries.flush, ?_, htaken⟩, h.due, h.waiting, ?_⟩
    · simp [haccepted]
    · intro hended
      simp at hended
      exact absurd hended hopen

theorem Sound.disconnect (h : Sound delivery) :
    Sound { delivery with emitter := delivery.emitter.disconnect } := by
  obtain ⟨taken, hcarries, haccepted, htaken⟩ := h.carries
  exact ⟨h.solid, ⟨taken, hcarries.congr rfl rfl, haccepted, htaken⟩, h.due, h.waiting, h.ended⟩

theorem Sound.finish (h : Sound delivery) (hphase : delivery.phase = .closing) :
    Sound { delivery with emitter := { delivery.emitter.flush with ended := true } } := by
  obtain ⟨taken, hcarries, haccepted, htaken⟩ := h.carries
  refine ⟨h.solid, ⟨taken, hcarries.flush.congr rfl rfl, ?_, htaken⟩, h.due, h.waiting, ?_⟩
  · simp [haccepted]
  · intro _
    exact ⟨delivery.emitter.flush_batch, .inl hphase⟩

theorem Sound.step (h : Sound delivery) (stem : String) (happening : Happening) :
    Sound (delivery.step stem happening) := by
  cases happening with
  | report metric => exact h.report (metric.line_ne_empty stem)
  | disconnect => exact h.disconnect
  | receive =>
    dsimp only [Delivery.step]
    split
    next hwaiting => exact h.receive (by simp [hwaiting]) (by simp [hwaiting])
    next => exact h
  | tick =>
    dsimp only [Delivery.step]
    split
    next => exact h.tick
    next => exact h
  | shutdown =>
    dsimp only [Delivery.step]
    split
    next hwaiting =>
      simp at hwaiting
      obtain ⟨taken, hcarries, haccepted, -⟩ := h.carries
      refine ⟨h.solid, ⟨taken, hcarries, haccepted, by simp⟩, h.due, by simp, ?_⟩
      intro hended
      simp [hwaiting.2] at hended
    next => exact h
  | take =>
    dsimp only [Delivery.step]
    split
    next hdraining =>
      split
      next hempty =>
        -- all that was accepted has been taken, so also what was due
        obtain ⟨taken, hcarries, haccepted, -⟩ := h.carries
        refine ⟨h.solid, ⟨taken, hcarries, haccepted, fun _ => ?_⟩, h.due, by simp, ?_⟩
        · have hdue := h.due
          rw [haccepted, hempty, List.append_nil] at hdue
          exact hdue
        · intro hended
          exact ⟨(h.ended hended).1, .inl rfl⟩
      next hsome => exact h.receive (by simp [hdraining]) fun _ => hsome
    next => exact h
  | finish =>
    dsimp only [Delivery.step]
    split
    next hclosing => exact h.finish hclosing
    next => exact h

theorem Sound.after (h : Sound delivery) (stem : String) (happenings : List Happening) :
    Sound (delivery.after stem happenings) := by
  induction happenings generalizing delivery with
  | nil => exact h
  | cons happening rest ih => exact ih (h.step stem happening)

/-- The texts handed to the socket, the batch and the queue make up the text of all accepted lines. -/
theorem Sound.joined_accepted (h : Sound delivery) :
    joined (delivery.emitter.handed ++ (if delivery.emitter.batch = "" then [] else [delivery.emitter.batch]) ++
      delivery.emitter.queue) = joined delivery.accepted := by
  obtain ⟨taken, ⟨groups, current, hhanded, hgroups, hbatch, hcurrent, rfl⟩, haccepted, -⟩ := h.carries
  rw [haccepted, hhanded, hbatch]
  by_cases hnil : current = []
  · rw [if_pos ((joined_eq_empty_iff hcurrent).mpr hnil), hnil, List.append_nil, List.append_nil]
    exact joined_map_joined_append hgroups _
  · have hall : ∀ group ∈ groups ++ [current], group ≠ [] := by
      intro group hgroup
      rcases List.mem_append.mp hgroup with hgroup | hgroup
      · exact hgroups group hgroup
      · rw [List.mem_singleton.mp hgroup]
        exact hnil
    have hjoined := joined_map_joined_append hall delivery.emitter.queue
    rw [if_neg ((joined_eq_empty_iff hcurrent).not.mpr hnil)]
    simpa using hjoined

/-- An emitter that has ended has handed on all that was due, each line in one text. -/
theorem Sound.handed_due (h : Sound delivery) (hended : delivery.emitter.ended = true) :
    delivery.emitter.batch = "" ∧ ∃ groups : List (List String), delivery.emitter.handed = groups.map joined ∧
      (∀ group ∈ groups, group ≠ []) ∧ delivery.due <+: groups.flatten ∧
      delivery.accepted = groups.flatten ++ delivery.emitter.queue := by
  obtain ⟨hbatch, hphase⟩ := h.ended hended
  obtain ⟨taken, ⟨groups, current, hhanded, hgroups, hold, hcurrent, rfl⟩, haccepted, htaken⟩ := h.carries
  rw [hbatch, eq_comm, joined_eq_empty_iff hcurrent] at hold
  rw [hold, List.append_nil] at haccepted htaken
  refine ⟨hbatch, groups, hhanded, hgroups, ?_, haccepted⟩
  rcases hphase with hclosing | ⟨hwaiting, hqueue⟩
  · exact htaken hclosing
  · rw [h.waiting hwaiting, haccepted, hqueue, List.append_nil]

/-- What the emitter owes to those who report: no accepted line is lost, doubled or put out of order, and once it has
ended each line that was due is in just one of the texts handed to the socket. -/
structure Delivered (delivery : Delivery) : Prop where
  whole : joined (delivery.emitter.handed ++ (if delivery.emitter.batch = "" then [] else [delivery.emitter.batch]) ++
    delivery.emitter.queue) = joined delivery.accepted
  handed : delivery.emitter.ended = true → delivery.emitter.batch = "" ∧
    ∃ groups : List (List String), delivery.emitter.handed = groups.map joined ∧
      (∀ group ∈ groups, group ≠ []) ∧ delivery.due <+: groups.flatten ∧
      delivery.accepted = groups.flatten ++ delivery.emitter.queue

/-- However reports fall between the steps of an emitter, it delivers what it has accepted. -/
theorem delivered_after (stem : String) (happenings : List Happening) : Delivered (after stem {} happenings) := by
  have hsound : Sound (after stem {} happenings) := sound_initial.after stem happenings
  exact ⟨hsound.joined_accepted, hsound.handed_due⟩

-- a line that comes when the queue has been found empty is accepted, but was not due any more
example : (after "" {} [.report (.counter "a"), .report (.counter "b"), .shutdown, .take, .take, .take,
    .report (.counter "c"), .finish]).emitter =
    { queue := ["c:1|c"], handed := ["a:1|c\nb:1|c"], ended := true } := by decide

/-! ## Shutting down without reports -/

theorem push_with_queue (emitter : Emitter) (queue : List String) (line : String) :
    { emitter with queue }.push line = { emitter.push line with queue } := by
  unfold Emitter.push Emitter.flush
  dsimp only
  split <;> split <;> rfl

theorem drain_receive {emitter : Emitter} {line : String} {rest : List String} (hopen : emitter.ended = false)
    (hqueue : emitter.queue = line :: rest) : emitter.receive.drain = emitter.drain := by
  have hempty : { { emitter with queue := rest }.push line with queue := [] } =
      { emitter with queue := [] }.push line := by
    rw [push_with_queue emitter rest, push_with_queue emitter []]
  unfold Emitter.drain
  rw [Emitter.receive_cons hopen hqueue, Emitter.push_queue, hempty, hqueue, List.foldl_cons]

/-- Taking until there is nothing left drains the queue. -/
theorem after_takes (stem : String) (delivery : Delivery) (hphase : delivery.phase = .draining)
    (hopen : delivery.emitter.ended = false) :
    delivery.after stem (List.replicate (delivery.emitter.queue.length + 1) .take) =
      { delivery with emitter := delivery.emitter.drain, phase := .closing } := by
  generalize hlength : delivery.emitter.queue.length = length
  induction length generalizing delivery with
  | zero =>
    have hempty : delivery.emitter.queue = [] := List.length_eq_zero_iff.mp hlength
    have hdrained : delivery.emitter.drain = delivery.emitter := by
      unfold Emitter.drain
      rw [hempty, List.foldl_nil, ← hempty]
    simp [after, step, hphase, hempty, hdrained]
  | succ length ih =>
    obtain ⟨line, rest, hqueue⟩ := List.exists_cons_of_length_eq_add_one hlength
    have hreceive := Emitter.receive_cons hopen hqueue
    have htake : delivery.step stem .take = { delivery with emitter := delivery.emitter.receive } := by
      simp [step, hphase, hqueue]
    have hrest := ih { delivery with emitter := delivery.emitter.receive } hphase
      (by simp [hreceive, hopen]) (by simp [hreceive]; simpa [hqueue] using hlength)
    rw [List.replicate_succ, after, List.foldl_cons, htake]
    refine hrest.trans ?_
    rw [drain_receive hopen hqueue]

/-- Shutting down while nobody reports drains the queue and hands on the last batch. -/
theorem emitter_after_shutdown (stem : String) (hphase : delivery.phase = .waiting)
    (hopen : delivery.emitter.ended = false) :
    (delivery.after stem
      (.shutdown :: List.replicate (delivery.emitter.queue.length + 1) .take ++ [.finish])).emitter =
      delivery.emitter.shutdown := by
  have hshutdown : delivery.step stem .shutdown = { delivery with phase := .draining } := by
    simp [step, hphase, hopen]
  have htakes := after_takes stem { delivery with phase := .draining } rfl hopen
  unfold after at htakes ⊢
  rw [List.cons_append, List.foldl_cons, hshutdown, List.foldl_append, htakes]
  simp [step, Emitter.shutdown, hopen]

end Delivery

end OverlayHost.Metrics
