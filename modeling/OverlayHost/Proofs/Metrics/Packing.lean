import OverlayHost.Proofs.Metrics.Delivery
import Mathlib.Data.List.Chain

/-!
# How lines lie in datagrams

A parcel is what one datagram holds, line by line, and whether it was handed on at a flush point, at a tick or at the
end: every other one was handed on because the next line did not fit. `packed_after` says of every run that the accepted
lines lie in the parcels in order, that a parcel is longer than a datagram may be only if it is a single line, that none
is handed on too early, and what is lost with one that the socket refuses.
-/

set_option autoImplicit false

namespace OverlayHost.Metrics

/-! ## Parcels -/

/-- The lines of one datagram; `timely` says whether it was handed on at a flush point. -/
structure Parcel where
  lines : List String
  timely : Bool

namespace Parcel

variable {parcel next : Parcel} {lines : List String} {line : String}

def text (parcel : Parcel) : String := joined parcel.lines

/-- The length of the datagram in bytes. -/
def size (parcel : Parcel) : Nat := parcel.text.utf8ByteSize

/-- The parcel fits into a datagram, or it is a single line that does not. -/
def Fits (parcel : Parcel) : Prop :=
  parcel.size ≤ maxDatagram ∨ ∃ line, parcel.lines = [line] ∧ maxDatagram < line.utf8ByteSize

/-- Unless it was time to hand the parcel on, the first line of the next one would not have fit into it. -/
def Full (parcel next : Parcel) : Prop :=
  parcel.timely = false → ∃ line ∈ next.lines.head?, maxDatagram < parcel.size + 1 + line.utf8ByteSize

theorem size_singleton (line : String) (timely : Bool) : (mk [line] timely).size = line.utf8ByteSize := by
  simp [size, text, joined]

theorem size_concat (hlines : lines ≠ []) (line : String) (timely : Bool) :
    (mk (lines ++ [line]) timely).size = (mk lines timely).size + 1 + line.utf8ByteSize := by
  simp only [size, text]
  rw [joined_append hlines (by simp)]
  simp only [joined, String.intercalate_singleton, String.utf8ByteSize_append]
  rfl

theorem fits_singleton (line : String) (timely : Bool) : (mk [line] timely).Fits := by
  rcases Nat.lt_or_ge maxDatagram line.utf8ByteSize with hlong | hshort
  · exact .inr ⟨line, rfl, hlong⟩
  · left
    rw [size_singleton]
    exact hshort

/-- More lines after the first one of the next parcel make no difference. -/
theorem Full.mono {other : Parcel} (h : parcel.Full next) (hhead : ∀ line ∈ next.lines.head?, line ∈ other.lines.head?) :
    parcel.Full other := by
  intro hearly
  obtain ⟨line, hline, hlong⟩ := h hearly
  exact ⟨line, hhead line hline, hlong⟩

theorem isChain_full_last {parcels : List Parcel} {last other : Parcel} (h : (parcels ++ [last]).IsChain Full)
    (hhead : ∀ line ∈ last.lines.head?, line ∈ other.lines.head?) : (parcels ++ [other]).IsChain Full := by
  rw [List.isChain_append] at h ⊢
  obtain ⟨hparcels, -, hlast⟩ := h
  refine ⟨hparcels, List.isChain_singleton _, ?_⟩
  intro parcel hparcel next hnext
  obtain rfl : other = next := by simpa using hnext
  exact (hlast parcel hparcel last (by simp)).mono hhead

/-- What goes out of the parcels if the socket refuses some of the texts, each by its number and what it is. -/
def sent (refuses : Nat → String → Bool) (parcels : List Parcel) : List Parcel :=
  (parcels.zipIdx.filter fun numbered => !refuses numbered.2 numbered.1.text).map Prod.fst

theorem sent_append (refuses : Nat → String → Bool) (before after : List Parcel) :
    sent refuses (before ++ after) =
      sent refuses before ++ sent (fun number => refuses (before.length + number)) after := by
  have hshift : after.zipIdx before.length =
      after.zipIdx.map fun numbered => (numbered.1, before.length + numbered.2) := by
    rw [List.zipIdx_eq_map_add]
  simp only [sent, List.zipIdx_append, List.filter_append, List.map_append, Nat.zero_add, hshift, List.filter_map,
    List.map_map]
  rfl

theorem sent_refused {refuses : Nat → String → Bool} (h : refuses 0 parcel.text = true) : sent refuses [parcel] = [] := by
  simp [sent, h]

theorem sent_eq_filter (refuses : String → Bool) (parcels : List Parcel) :
    sent (fun _ => refuses) parcels = parcels.filter fun parcel => !refuses parcel.text := by
  have hnumbers : parcels.zipIdx.map Prod.fst = parcels := List.zipIdx_map_fst 0 parcels
  conv_rhs => rw [← hnumbers, List.filter_map]
  rfl

end Parcel

/-! ## What one step hands on -/

namespace Emitter

variable {emitter : Emitter} {parcels : List Parcel} {current next : List String} {line : String}

/-- The texts handed to the socket are the parcels, and the batch holds the current lines. -/
structure Packs (emitter : Emitter) (parcels : List Parcel) (current : List String) : Prop where
  handed : parcels.map Parcel.text = emitter.handed
  batch : joined current = emitter.batch
  solid : ∀ line ∈ current, line ≠ ""
  nonempty : ∀ parcel ∈ parcels, parcel.text ≠ ""
  fits : ∀ parcel ∈ parcels, parcel.Fits
  currentFits : (Parcel.mk current true).Fits
  full : (parcels ++ [Parcel.mk current true]).IsChain Parcel.Full

theorem Packs.congr {other : Emitter} (h : emitter.Packs parcels current) (hhanded : other.handed = emitter.handed)
    (hbatch : other.batch = emitter.batch) : other.Packs parcels current :=
  { h with handed := h.handed.trans hhanded.symm, batch := h.batch.trans hbatch.symm }

theorem Packs.batch_eq_empty_iff (h : emitter.Packs parcels current) : emitter.batch = "" ↔ current = [] := by
  rw [← h.batch]
  exact joined_eq_empty_iff h.solid

/-- The current lines are handed on, and others take their place. -/
theorem Packs.handOn (h : emitter.Packs parcels current) (hsome : current ≠ []) (timely : Bool)
    (hfull : (Parcel.mk current timely).Full ⟨next, true⟩) (hsolid : ∀ line ∈ next, line ≠ "")
    (hfits : (Parcel.mk next true).Fits) :
    { emitter.flush with batch := joined next }.Packs (parcels ++ [Parcel.mk current timely]) next := by
  have hbatch : emitter.batch ≠ "" := h.batch_eq_empty_iff.not.mpr hsome
  have htext : (Parcel.mk current timely).text = emitter.batch := h.batch
  refine ⟨?_, rfl, hsolid, ?_, ?_, hfits, ?_⟩
  · simp [Emitter.flush, hbatch, h.handed, htext]
  · intro parcel hparcel
    rcases List.mem_append.mp hparcel with hparcel | hparcel
    · exact h.nonempty parcel hparcel
    · rw [List.mem_singleton.mp hparcel, htext]
      exact hbatch
  · intro parcel hparcel
    rcases List.mem_append.mp hparcel with hparcel | hparcel
    · exact h.fits parcel hparcel
    · rw [List.mem_singleton.mp hparcel]
      exact h.currentFits
  · rw [List.append_assoc, List.singleton_append, List.isChain_append_cons_cons]
    exact ⟨Parcel.isChain_full_last h.full fun _ => id, hfull, List.isChain_singleton _⟩

theorem Packs.flush (h : emitter.Packs parcels current) :
    ∃ more : List Parcel, emitter.flush.Packs (parcels ++ more) [] ∧ (∀ parcel ∈ more, parcel.timely = true) ∧
      current = more.flatMap Parcel.lines := by
  by_cases hnone : current = []
  · subst hnone
    have hbatch : emitter.batch = "" := h.batch_eq_empty_iff.mpr rfl
    refine ⟨[], ?_, by simp, rfl⟩
    simpa [Emitter.flush, hbatch] using h
  · refine ⟨[⟨current, true⟩], ?_, by simp, by simp⟩
    have hhanded : { emitter.flush with batch := joined [] }.Packs (parcels ++ [Parcel.mk current true]) [] := by
      apply h.handOn hnone true
      · simp [Parcel.Full]
      · simp
      · simp [Parcel.Fits, Parcel.size, Parcel.text, joined]
    exact hhanded.congr rfl emitter.flush_batch

/-- A line is put behind the current ones. -/
theorem Packs.add (h : emitter.Packs parcels current) (hline : line ≠ "")
    (hfits : (Parcel.mk (current ++ [line]) true).Fits) :
    { emitter with batch := joined (current ++ [line]) }.Packs parcels (current ++ [line]) := by
  refine ⟨h.handed, rfl, ?_, h.nonempty, h.fits, hfits, ?_⟩
  · intro other hother
    rcases List.mem_append.mp hother with hother | hother
    · exact h.solid other hother
    · rw [List.mem_singleton.mp hother]
      exact hline
  · apply Parcel.isChain_full_last h.full
    intro first hfirst
    simp only [List.head?_append, Option.mem_def] at hfirst ⊢
    simp [hfirst]

theorem Packs.push (h : emitter.Packs parcels current) (hline : line ≠ "") :
    ∃ (more : List Parcel) (next : List String), (emitter.push line).Packs (parcels ++ more) next ∧
      (∀ parcel ∈ more, parcel.timely = false) ∧ current ++ [line] = more.flatMap Parcel.lines ++ next := by
  by_cases hnone : current = []
  · subst hnone
    have hbatch : emitter.batch = "" := h.batch_eq_empty_iff.mpr rfl
    refine ⟨[], [line], ?_, by simp, by simp⟩
    have hadd := h.add hline (Parcel.fits_singleton line true)
    simpa [Emitter.push, hbatch, joined] using hadd
  have hbatch : emitter.batch ≠ "" := h.batch_eq_empty_iff.not.mpr hnone
  have hsize : (Parcel.mk current true).size = emitter.batch.utf8ByteSize := congrArg String.utf8ByteSize h.batch
  by_cases hlong : emitter.batch.utf8ByteSize + 1 + line.utf8ByteSize > maxDatagram
  · refine ⟨[⟨current, false⟩], [line], ?_, by simp, by simp⟩
    have hfull : (Parcel.mk current false).Full ⟨[line], true⟩ := by
      intro _
      refine ⟨line, rfl, ?_⟩
      rw [← hsize] at hlong
      exact hlong
    have hhanded := h.handOn hnone false hfull (by simpa using hline) (Parcel.fits_singleton line true)
    refine hhanded.congr ?_ ?_ <;> simp [Emitter.push, hbatch, hlong, emitter.flush_batch, joined]
  · refine ⟨[], current ++ [line], ?_, by simp, by simp⟩
    have hfits : (Parcel.mk (current ++ [line]) true).Fits := by
      left
      rw [Parcel.size_concat hnone, hsize]
      omega
    have hadd := h.add hline hfits
    rw [List.append_nil]
    refine hadd.congr ?_ ?_
    · simp [Emitter.push, hlong]
    · simp only [Emitter.push, hlong]
      rw [joined_append hnone (by simp), h.batch]
      simp [joined, hbatch]

/-- A line that is received goes into the batch; with none left the batch may be handed on, as it is time to. -/
theorem Packs.receive (h : emitter.Packs parcels current) (hqueue : ∀ line ∈ emitter.queue, line ≠ "") :
    ∃ (more : List Parcel) (next : List String), emitter.receive.Packs (parcels ++ more) next ∧
      (∀ parcel ∈ more, parcel.timely = emitter.queue.isEmpty) ∧
      current ++ emitter.queue = more.flatMap Parcel.lines ++ next ++ emitter.receive.queue := by
  have hstill : ∃ (more : List Parcel) (next : List String), emitter.Packs (parcels ++ more) next ∧
      (∀ parcel ∈ more, parcel.timely = emitter.queue.isEmpty) ∧
      current ++ emitter.queue = more.flatMap Parcel.lines ++ next ++ emitter.queue :=
    ⟨[], current, by simpa using h, by simp, by simp⟩
  by_cases hended : emitter.ended = true
  · have hsame : emitter.receive = emitter := by simp [Emitter.receive, hended]
    rwa [hsame]
  cases hwaiting : emitter.queue with
  | nil =>
    rcases receive_nil hwaiting with hsame | hend
    · rw [hsame]
      rwa [hwaiting] at hstill ⊢
    · obtain ⟨more, hmore, htimely, hlines⟩ := h.flush
      rw [hend]
      exact ⟨more, [], hmore.congr rfl rfl, by simpa using htimely, by simp [hwaiting, hlines]⟩
  | cons line rest =>
    have hline : line ≠ "" := hqueue line (by simp [hwaiting])
    have hsame : { emitter with queue := rest }.Packs parcels current := h.congr rfl rfl
    obtain ⟨more, next, hnext, htimely, hlines⟩ := hsame.push hline
    rw [receive_cons (by simpa using hended) hwaiting]
    refine ⟨more, next, hnext, by simpa using htimely, ?_⟩
    simp [← hlines]

end Emitter

/-! ## Whole runs -/

namespace Delivery

open Parcel

variable {delivery : Delivery} {parcels : List Parcel} {current : List String}

/-- Whether the emitter hands its batch on at a step in any case: at a tick, and when it ends. -/
def flushes (delivery : Delivery) : Happening → Bool
  | .tick => true
  | .receive => delivery.emitter.queue.isEmpty
  | .finish => true
  | .report _ | .disconnect | .shutdown | .take => false

/-- For each text handed to the socket, in order, whether that was at a flush point. -/
def marks (stem : String) (delivery : Delivery) : List Happening → List Bool
  | [] => []
  | happening :: rest =>
    let next := delivery.step stem happening
    List.replicate (next.emitter.handed.length - delivery.emitter.handed.length) (delivery.flushes happening) ++
      marks stem next rest

/-- All accepted lines lie in the parcels, in the batch and in the queue. -/
structure Stowed (delivery : Delivery) (parcels : List Parcel) (current : List String) : Prop where
  packs : delivery.emitter.Packs parcels current
  accepted : delivery.accepted = parcels.flatMap lines ++ current ++ delivery.emitter.queue

/-- The lines are stowed in some more parcels, which were all handed on in time, or all not. -/
def HandsOn (delivery : Delivery) (parcels : List Parcel) (timely : Bool) : Prop :=
  ∃ (more : List Parcel) (rest : List String), Stowed delivery (parcels ++ more) rest ∧
    ∀ parcel ∈ more, parcel.timely = timely

theorem stowed_initial : Stowed {} [] [] where
  packs := ⟨rfl, rfl, by simp, by simp, by simp, by simp [Fits, size, text, joined], List.isChain_singleton _⟩
  accepted := rfl

theorem Stowed.unchanged (h : Stowed delivery parcels current) {next : Delivery} {timely : Bool}
    (hhanded : next.emitter.handed = delivery.emitter.handed) (hbatch : next.emitter.batch = delivery.emitter.batch)
    (haccepted : next.accepted = parcels.flatMap lines ++ current ++ next.emitter.queue) :
    next.HandsOn parcels timely := by
  refine ⟨[], current, ⟨?_, ?_⟩, by simp⟩
  · simpa using h.packs.congr hhanded hbatch
  · simpa using haccepted

theorem Stowed.flush (h : Stowed delivery parcels current) {next : Delivery}
    (hhanded : next.emitter.handed = delivery.emitter.flush.handed) (hbatch : next.emitter.batch = "")
    (haccepted : next.accepted = delivery.accepted) (hqueue : next.emitter.queue = delivery.emitter.queue) :
    next.HandsOn parcels true := by
  obtain ⟨more, hmore, htimely, hlines⟩ := h.packs.flush
  refine ⟨more, [], ⟨?_, ?_⟩, htimely⟩
  · exact hmore.congr hhanded (hbatch.trans delivery.emitter.flush_batch.symm)
  · rw [haccepted, hqueue, h.accepted, hlines]
    simp

theorem Stowed.receive (h : Stowed delivery parcels current) (hsolid : ∀ line ∈ delivery.accepted, line ≠ "") :
    HandsOn { delivery with emitter := delivery.emitter.receive } parcels delivery.emitter.queue.isEmpty := by
  have hqueue : ∀ line ∈ delivery.emitter.queue, line ≠ "" := by
    intro line hline
    apply hsolid
    simp [h.accepted, hline]
  obtain ⟨more, rest, hmore, htimely, hlines⟩ := h.packs.receive hqueue
  refine ⟨more, rest, ⟨hmore, ?_⟩, htimely⟩
  simp only [h.accepted, List.flatMap_append, List.append_assoc] at hlines ⊢
  rw [hlines]

theorem Stowed.report (h : Stowed delivery parcels current) (line : String) (timely : Bool) :
    (delivery.report line).HandsOn parcels timely := by
  cases haccepts : delivery.emitter.accepts with
  | true =>
    have hreport := Emitter.report_of_accepts haccepts line
    apply h.unchanged
    · simp [Delivery.report, haccepts, hreport]
    · simp [Delivery.report, haccepts, hreport]
    · simp [Delivery.report, haccepts, hreport, h.accepted]
  | false =>
    have hreport := Emitter.report_of_not_accepts haccepts line
    apply h.unchanged
    · simp [Delivery.report, haccepts, hreport]
    · simp [Delivery.report, haccepts, hreport]
    · simp [Delivery.report, haccepts, hreport, h.accepted]

/-- What a step hands on is in time just if the step is a flush point. -/
theorem Stowed.step (h : Stowed delivery parcels current) (hsolid : ∀ line ∈ delivery.accepted, line ≠ "")
    (stem : String) (happening : Happening) :
    (delivery.step stem happening).HandsOn parcels (delivery.flushes happening) := by
  cases happening with
  | report metric => exact h.report (metric.line stem) false
  | disconnect => exact h.unchanged rfl rfl h.accepted
  | receive =>
    dsimp only [Delivery.step]
    split
    next => exact h.receive hsolid
    next => exact h.unchanged rfl rfl h.accepted
  | tick =>
    dsimp only [Delivery.step, Emitter.tick]
    split
    next =>
      split
      next => exact h.unchanged rfl rfl h.accepted
      next => exact h.flush rfl delivery.emitter.flush_batch rfl (by simp)
    next => exact h.unchanged rfl rfl h.accepted
  | shutdown =>
    dsimp only [Delivery.step]
    split <;> exact h.unchanged rfl rfl h.accepted
  | take =>
    dsimp only [Delivery.step]
    split
    next =>
      split
      next => exact h.unchanged rfl rfl h.accepted
      next hsome =>
        -- there is a line to take, so this is no end
        have hline : delivery.emitter.queue.isEmpty = false := by simpa using hsome
        have hreceive := h.receive hsolid
        rwa [hline] at hreceive
    next => exact h.unchanged rfl rfl h.accepted
  | finish =>
    dsimp only [Delivery.step]
    split
    next => exact h.flush rfl delivery.emitter.flush_batch rfl (by simp)
    next => exact h.unchanged rfl rfl h.accepted

theorem Stowed.after (h : Stowed delivery parcels current) (hsound : Sound delivery) (stem : String)
    (happenings : List Happening) :
    ∃ (more : List Parcel) (rest : List String), Stowed (delivery.after stem happenings) (parcels ++ more) rest ∧
      more.map timely = marks stem delivery happenings := by
  induction happenings generalizing delivery parcels current with
  | nil => exact ⟨[], current, by simpa [after] using h, rfl⟩
  | cons happening happenings ih =>
    obtain ⟨more, rest, hmore, htimely⟩ := h.step hsound.solid stem happening
    obtain ⟨later, last, hlast, hmarks⟩ := ih hmore (hsound.step stem happening)
    refine ⟨more ++ later, last, ?_, ?_⟩
    · rw [← List.append_assoc]
      exact hlast
    · -- as many texts were handed on as there are new parcels
      have hcount : (delivery.step stem happening).emitter.handed.length =
          delivery.emitter.handed.length + more.length := by
        rw [← hmore.packs.handed, ← h.packs.handed]
        simp
      rw [List.map_append, hmarks, marks, hcount, Nat.add_sub_cancel_left]
      congr 1
      rw [List.eq_replicate_iff]
      simpa using htimely

/-- How the accepted lines lie in datagrams. `marks` says of each text handed to the socket whether that was at a flush
point. -/
structure Packed (delivery : Delivery) (marks : List Bool) (parcels : List Parcel) (current : List String) : Prop where
  handed : parcels.map text = delivery.emitter.handed
  marked : parcels.map timely = marks
  batch : joined current = delivery.emitter.batch
  accepted : delivery.accepted = parcels.flatMap lines ++ current ++ delivery.emitter.queue
  nonempty : ∀ parcel ∈ parcels, parcel.text ≠ ""
  fits : ∀ parcel ∈ parcels, parcel.Fits
  /-- Each parcel is full next to the one that follows it, the last one next to the lines in the batch. -/
  full : (parcels ++ [Parcel.mk current true]).IsChain Full

/-- What is lost with a parcel that the socket refuses and that is too long: one line, and none of what goes out of the
parcels before it and after it. -/
def LosesOneLine (parcels : List Parcel) : Prop :=
  ∀ (refuses : Nat → String → Bool) (before after : List Parcel) (parcel : Parcel),
    parcels = before ++ parcel :: after → refuses before.length parcel.text = true → maxDatagram < parcel.size →
    ∃ line, parcel.lines = [line] ∧ parcels.flatMap lines = before.flatMap lines ++ line :: after.flatMap lines ∧
      sent refuses parcels =
        sent refuses before ++ sent (fun number => refuses (before.length + 1 + number)) after

theorem losesOneLine_of_fits (hfits : ∀ parcel ∈ parcels, parcel.Fits) : LosesOneLine parcels := by
  rintro refuses before after parcel rfl hrefused hlong
  rcases hfits parcel (by simp) with hshort | ⟨line, hline, -⟩
  · exact absurd hlong (Nat.not_lt.mpr hshort)
  refine ⟨line, hline, by simp [hline], ?_⟩
  rw [← List.singleton_append, sent_append, sent_append, sent_refused (by simpa using hrefused), List.nil_append]
  simp [Nat.add_assoc]

/-- However lines, ticks and the end come, the datagrams are packed as tightly as the order of the lines allows, and a
line is lost by itself if it is too long for the socket. -/
theorem packed_after (stem : String) (happenings : List Happening) :
    let delivery := after stem {} happenings
    ∃ parcels current, Packed delivery (marks stem {} happenings) parcels current ∧ LosesOneLine parcels ∧
      (sent (fun _ text => text.utf8ByteSize > maxSendable) parcels).map text = delivery.emitter.datagrams := by
  obtain ⟨parcels, current, ⟨hpacks, haccepted⟩, hmarks⟩ := stowed_initial.after sound_initial stem happenings
  rw [List.nil_append] at hpacks haccepted
  refine ⟨parcels, current, ?_, losesOneLine_of_fits hpacks.fits, ?_⟩
  · exact ⟨hpacks.handed, hmarks, hpacks.batch, haccepted, hpacks.nonempty, hpacks.fits, hpacks.full⟩
  · rw [sent_eq_filter, Emitter.datagrams, ← hpacks.handed, List.filter_map]
    simp [Function.comp_def, ← decide_not]

-- two lines of 255 and 256 bytes are just what fits; with one more byte the first is handed on by itself
example : let counter (length : Nat) := Happening.report (.counter (String.ofList (List.replicate (length - 4) 'a')))
    marks "" {} [counter 255, counter 256, .receive, .receive, .tick] = [true] ∧
      marks "" {} [counter 256, counter 256, .receive, .receive, .tick] = [false, true] := by decide +kernel

end Delivery

end OverlayHost.Metrics
