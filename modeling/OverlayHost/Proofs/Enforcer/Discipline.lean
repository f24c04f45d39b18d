import OverlayHost.Proofs.Enforcer.Accounts

/-!
# Which calls are made, and when

Putting a rule set into force on any packet filter whatsoever: the lines that it lists may be of any kind, and every
call may fail or not. `Follows` relates a program to all that it can do until its end if it is answered at will, so
what holds of that holds on every host. `Course` and `Removes` say what the enforcer can do, call by call, and the laws
that it keeps are read off them: which calls must have succeeded or failed before each call (`Permitted`), when the
fresh generation is thrown away, and what has been done if it ends well.
-/

set_option autoImplicit false

namespace OverlayHost

/-! ## What a program does -/

namespace Filter.Program

variable {α σ : Type} {result last : α} {request : Call} {events : List Event}

/-- The call that was made, if it was one. -/
def Event.call? : Event → Option Call
  | .called request _ => some request
  | .read _ => none

/-- What a program does, and its result, if it is answered one way or another. -/
inductive Follows : Program α → List Event → α → Prop
  | done (result : α) : Follows (.done result) [] result
  | call {request : Call} {next : Reply → Program α} {events : List Event} {result : α} (reply : Reply)
    (h : Follows (next reply) events result) : Follows (.call request next) (.called request reply :: events) result
  | clock {next : Nat → Program α} {events : List Event} {result : α} (now : Nat)
    (h : Follows (next now) events result) : Follows (.clock next) (.read now :: events) result

/-- On every host a program does what it can do. -/
theorem follows_trace (host : Host σ) (program : Program α) (state : σ) :
    Follows program ((program.trace host state).map Prod.fst) (program.run host state).1 := by
  induction program generalizing state with
  | done result => exact .done result
  | call request next ih => exact .call _ (ih _ (host.perform state request).2)
  | clock next ih => exact .clock _ (ih _ (host.now state).2)

theorem Follows.of_done (h : Follows (.done result) events last) : events = [] ∧ last = result := by
  cases h
  exact ⟨rfl, rfl⟩

theorem Follows.of_call {next : Reply → Program α} (h : Follows (.call request next) events result) :
    ∃ reply later, events = .called request reply :: later ∧ Follows (next reply) later result := by
  cases h with
  | call reply h => exact ⟨reply, _, rfl, h⟩

theorem Follows.of_clock {next : Nat → Program α} (h : Follows (.clock next) events result) :
    ∃ now later, events = .read now :: later ∧ Follows (next now) later result := by
  cases h with
  | clock now h => exact ⟨now, _, rfl, h⟩

end Filter.Program

namespace Enforcer

open OverlayHost.Filter (Call ChainId Program Reply Host)
open OverlayHost.Filter.Program (Event Follows)

variable {set : RuleSet} {chain : Chain} {found rest : List Nat} {fresh now : Nat} {events before later : List Event}
  {result : Except EnforceError Unit} {event : Event} {call : Call}

/-! ## What the enforcer does -/

/-- The calls that build, fill and link a generation. -/
def creation (set : RuleSet) (fresh : Nat) : Call := ⟨set.chain.generationId fresh, .newChain⟩

def filling (set : RuleSet) (fresh : Nat) : Call := ⟨set.chain.generationId fresh, .bulkAppend set.rules⟩

def linking (set : RuleSet) (fresh : Nat) : Call := ⟨set.chain.parentId, .bulkInsert 1 [set.chain.link fresh]⟩

/-- The calls that take a generation out of the parent, empty it and delete it. -/
def unlinking (chain : Chain) (old : Nat) : Call := ⟨chain.parentId, .delete (chain.link old)⟩

def clearing (chain : Chain) (old : Nat) : Call := ⟨chain.generationId old, .clearChain⟩

def deletion (chain : Chain) (old : Nat) : Call := ⟨chain.generationId old, .deleteChain⟩

def removal (chain : Chain) (old : Nat) : List Call := [unlinking chain old, clearing chain old, deletion chain old]

/-- What removing generations can come to: up to the first failure, each in turn is taken out, emptied and deleted. -/
inductive Removes (chain : Chain) : List Nat → List Event → Except EnforceError Unit → Prop
  | done : Removes chain [] [] (.ok ())
  | notUnlinked (old : Nat) (rest : List Nat) (cause : Filter.Error) :
    Removes chain (old :: rest) [.called (unlinking chain old) (.error cause)] (.error (.cleanup cause))
  | notCleared (old : Nat) (rest : List Nat) (unlinked : List String) (cause : Filter.Error) :
    Removes chain (old :: rest)
      [.called (unlinking chain old) (.ok unlinked), .called (clearing chain old) (.error cause)]
      (.error (.cleanup cause))
  | notDeleted (old : Nat) (rest : List Nat) (unlinked cleared : List String) (cause : Filter.Error) :
    Removes chain (old :: rest)
      [.called (unlinking chain old) (.ok unlinked), .called (clearing chain old) (.ok cleared),
        .called (deletion chain old) (.error cause)]
      (.error (.cleanup cause))
  | removed (old : Nat) {rest : List Nat} (unlinked cleared deleted : List String) {later : List Event}
    {result : Except EnforceError Unit} (h : Removes chain rest later result) :
    Removes chain (old :: rest)
      (.called (unlinking chain old) (.ok unlinked) :: .called (clearing chain old) (.ok cleared) ::
        .called (deletion chain old) (.ok deleted) :: later)
      result

/-- What replacing the generations found can come to, by the first call that fails. -/
inductive Course (set : RuleSet) (found : List Nat) (fresh : Nat) : List Event → Except EnforceError Unit → Prop
  | notCreated (cause : Filter.Error) :
    Course set found fresh [.called (creation set fresh) (.error cause)] (.error (.createChain cause))
  | notFilled (created : List String) (cause : Filter.Error) (cleared deleted : Reply) :
    Course set found fresh
      [.called (creation set fresh) (.ok created), .called (filling set fresh) (.error cause),
        .called (clearing set.chain fresh) cleared, .called (deletion set.chain fresh) deleted]
      (.error (.append cause))
  | notLinked (created filled : List String) (cause : Filter.Error) (cleared deleted : Reply) :
    Course set found fresh
      [.called (creation set fresh) (.ok created), .called (filling set fresh) (.ok filled),
        .called (linking set fresh) (.error cause), .called (clearing set.chain fresh) cleared,
        .called (deletion set.chain fresh) deleted]
      (.error (.insert cause))
  | linked (created filled linked : List String) {later : List Event} {result : Except EnforceError Unit}
    (h : Removes set.chain found later result) :
    Course set found fresh
      (.called (creation set fresh) (.ok created) :: .called (filling set fresh) (.ok filled) ::
        .called (linking set fresh) (.ok linked) :: later)
      result

theorem removes_of_follows (h : Follows (removeAll chain found) events result) : Removes chain found events result := by
  induction found generalizing events with
  | nil =>
    obtain ⟨rfl, rfl⟩ := h.of_done
    exact .done
  | cons old rest ih =>
    rw [removeAll_cons] at h
    obtain ⟨unlinked, later, rfl, hunlinked⟩ := h.of_call
    cases unlinked with
    | error cause =>
      obtain ⟨rfl, rfl⟩ := hunlinked.of_done
      exact .notUnlinked old rest cause
    | ok unlinked =>
      obtain ⟨cleared, later, rfl, hcleared⟩ := hunlinked.of_call
      cases cleared with
      | error cause =>
        obtain ⟨rfl, rfl⟩ := hcleared.of_done
        exact .notCleared old rest unlinked cause
      | ok cleared =>
        obtain ⟨deleted, later, rfl, hdeleted⟩ := hcleared.of_call
        cases deleted with
        | error cause =>
          obtain ⟨rfl, rfl⟩ := hdeleted.of_done
          exact .notDeleted old rest unlinked cleared cause
        | ok deleted => exact .removed old unlinked cleared deleted (ih hdeleted)

theorem discard_of_follows {id : ChainId} {error : EnforceError} (h : Follows (discard id error) events result) :
    ∃ cleared deleted, events = [.called ⟨id, .clearChain⟩ cleared, .called ⟨id, .deleteChain⟩ deleted] ∧
      result = .error error := by
  obtain ⟨cleared, later, rfl, hcleared⟩ := h.of_call
  obtain ⟨deleted, last, rfl, hdeleted⟩ := hcleared.of_call
  obtain ⟨rfl, rfl⟩ := hdeleted.of_done
  exact ⟨cleared, deleted, rfl, rfl⟩

theorem course_of_follows (h : Follows (replace set found now) events result) :
    Course set found (Generation.next found now) events result := by
  rw [replace_eq] at h
  obtain ⟨created, later, rfl, hcreated⟩ := h.of_call
  cases created with
  | error cause =>
    obtain ⟨rfl, rfl⟩ := hcreated.of_done
    exact .notCreated cause
  | ok created =>
    obtain ⟨filled, later, rfl, hfilled⟩ := hcreated.of_call
    cases filled with
    | error cause =>
      obtain ⟨cleared, deleted, rfl, rfl⟩ := discard_of_follows hfilled
      exact .notFilled created cause cleared deleted
    | ok filled =>
      obtain ⟨linked, later, rfl, hlinked⟩ := hfilled.of_call
      cases linked with
      | error cause =>
        obtain ⟨cleared, deleted, rfl, rfl⟩ := discard_of_follows hlinked
        exact .notLinked created filled cause cleared deleted
      | ok linked => exact .linked created filled linked (removes_of_follows hlinked)

/-! ## What must have happened before a call -/

/-- Whether a call was made. -/
def Called (events : List Event) (call : Call) : Prop := ∃ reply, .called call reply ∈ events

/-- Whether a call was made and succeeded. -/
def Succeeded (events : List Event) (call : Call) : Prop := ∃ lines, .called call (.ok lines) ∈ events

/-- Whether a call was made and failed. -/
def Failed (events : List Event) (call : Call) : Prop := ∃ cause, .called call (.error cause) ∈ events

/-- Whether the fresh generation could not be filled or not be linked. -/
def Abandons (set : RuleSet) (fresh : Nat) (events : List Event) : Prop :=
  Failed events (filling set fresh) ∨ Failed events (linking set fresh)

/-- The calls that may be made after what has happened since the clock was read. -/
inductive Permitted (set : RuleSet) (found : List Nat) (fresh : Nat) (before : List Event) : Call → Prop
  | create (h : before = []) : Permitted set found fresh before (creation set fresh)
  | fill (h : Succeeded before (creation set fresh)) : Permitted set found fresh before (filling set fresh)
  | link (hcreated : Succeeded before (creation set fresh)) (hfilled : Succeeded before (filling set fresh)) :
    Permitted set found fresh before (linking set fresh)
  | unlink {old : Nat} (hold : old ∈ found) (h : Succeeded before (linking set fresh)) :
    Permitted set found fresh before (unlinking set.chain old)
  | clear {old : Nat} (hold : old ∈ found) (h : Succeeded before (unlinking set.chain old)) :
    Permitted set found fresh before (clearing set.chain old)
  | delete {old : Nat} (hold : old ∈ found) (h : Succeeded before (clearing set.chain old)) :
    Permitted set found fresh before (deletion set.chain old)
  | abandonClear (h : Abandons set fresh before) : Permitted set found fresh before (clearing set.chain fresh)
  | abandonDelete (h : Abandons set fresh before) : Permitted set found fresh before (deletion set.chain fresh)

/-- Whether all events are calls that may be made after what comes before them. -/
def Orderly (set : RuleSet) (found : List Nat) (fresh : Nat) (events : List Event) : Prop :=
  ∀ before event after, events = before ++ event :: after →
    ∃ call reply, event = .called call reply ∧ Permitted set found fresh before call

theorem orderly_nil : Orderly set found fresh [] := by
  intro before event after h
  cases before <;> cases h

theorem Orderly.concat (h : Orderly set found fresh events) (hcall : Permitted set found fresh events call)
    (reply : Reply) : Orderly set found fresh (events ++ [.called call reply]) := by
  intro before event after hsplit
  -- the event is the new one, or stands where it stood before
  rcases List.eq_nil_or_concat after with rfl | ⟨earlier, last, rfl⟩
  · obtain ⟨rfl, hevent⟩ := List.append_inj' hsplit rfl
    exact ⟨call, reply, (List.cons.inj hevent).1.symm, hcall⟩
  · rw [List.concat_eq_append, ← List.cons_append, ← List.append_assoc] at hsplit
    obtain ⟨hevents, -⟩ := List.append_inj' hsplit rfl
    exact h before event earlier hevents

theorem Succeeded.append_right (h : Succeeded before call) (later : List Event) : Succeeded (before ++ later) call := by
  obtain ⟨lines, hmem⟩ := h
  exact ⟨lines, List.mem_append_left later hmem⟩

theorem succeeded_concat (before : List Event) (call : Call) (lines : List String) :
    Succeeded (before ++ [.called call (.ok lines)]) call :=
  ⟨lines, List.mem_append_right before (List.mem_singleton_self _)⟩

theorem Failed.append_right (h : Failed before call) (later : List Event) : Failed (before ++ later) call := by
  obtain ⟨cause, hmem⟩ := h
  exact ⟨cause, List.mem_append_left later hmem⟩

theorem failed_concat (before : List Event) (call : Call) (cause : Filter.Error) :
    Failed (before ++ [.called call (.error cause)]) call :=
  ⟨cause, List.mem_append_right before (List.mem_singleton_self _)⟩

theorem Abandons.concat (h : Abandons set fresh before) (event : Event) : Abandons set fresh (before ++ [event]) := by
  rcases h with hfilling | hlinking
  · exact .inl (hfilling.append_right [event])
  · exact .inr (hlinking.append_right [event])

/-- Removing generations that were found is orderly once the fresh one has been linked. -/
theorem Removes.orderly (h : Removes set.chain rest later result) (hrest : ∀ old ∈ rest, old ∈ found)
    (hbefore : Orderly set found fresh before) (hlinked : Succeeded before (linking set fresh)) :
    Orderly set found fresh (before ++ later) := by
  induction h generalizing before with
  | done =>
    rw [List.append_nil]
    exact hbefore
  | notUnlinked old rest cause =>
    exact hbefore.concat (.unlink (hrest old (List.mem_cons_self ..)) hlinked) _
  | notCleared old rest unlinked cause =>
    have hold := hrest old (List.mem_cons_self ..)
    have hunlinked := hbefore.concat (.unlink hold hlinked) (.ok unlinked)
    rw [List.append_cons]
    exact hunlinked.concat (.clear hold (succeeded_concat ..)) _
  | notDeleted old rest unlinked cleared cause =>
    have hold := hrest old (List.mem_cons_self ..)
    have hunlinked := hbefore.concat (.unlink hold hlinked) (.ok unlinked)
    have hcleared := hunlinked.concat (.clear hold (succeeded_concat ..)) (.ok cleared)
    rw [List.append_cons, List.append_cons]
    exact hcleared.concat (.delete hold (succeeded_concat ..)) _
  | removed old unlinked cleared deleted h ih =>
    have hold := hrest old (List.mem_cons_self ..)
    have hunlinked := hbefore.concat (.unlink hold hlinked) (.ok unlinked)
    have hcleared := hunlinked.concat (.clear hold (succeeded_concat ..)) (.ok cleared)
    have hdeleted := hcleared.concat (.delete hold (succeeded_concat ..)) (.ok deleted)
    rw [List.append_cons, List.append_cons, List.append_cons]
    exact ih (fun other hother => hrest other (List.mem_cons_of_mem old hother)) hdeleted
      (((hlinked.append_right _).append_right _).append_right _)

/-- Throwing the fresh generation away is orderly once it could not be filled or not be linked. -/
theorem orderly_discard (hbefore : Orderly set found fresh before) (habandons : Abandons set fresh before)
    (cleared deleted : Reply) : Orderly set found fresh
      (before ++ [.called (clearing set.chain fresh) cleared, .called (deletion set.chain fresh) deleted]) := by
  rw [List.append_cons]
  exact (hbefore.concat (.abandonClear habandons) cleared).concat (.abandonDelete (habandons.concat _)) deleted

theorem Course.orderly (h : Course set found fresh events result) : Orderly set found fresh events := by
  have hcreate (reply : Reply) : Orderly set found fresh [.called (creation set fresh) reply] :=
    orderly_nil.concat (.create rfl) reply
  have hfill (created : List String) (reply : Reply) : Orderly set found fresh
      [.called (creation set fresh) (.ok created), .called (filling set fresh) reply] :=
    (hcreate (.ok created)).concat (.fill (succeeded_concat [] ..)) reply
  have hlink (created filled : List String) (reply : Reply) : Orderly set found fresh
      [.called (creation set fresh) (.ok created), .called (filling set fresh) (.ok filled),
        .called (linking set fresh) reply] :=
    (hfill created (.ok filled)).concat
      (.link ((succeeded_concat [] ..).append_right [_]) (succeeded_concat [_] ..)) reply
  cases h with
  | notCreated cause => exact hcreate _
  | notFilled created cause cleared deleted =>
    exact orderly_discard (hfill created _) (.inl (failed_concat [_] ..)) cleared deleted
  | notLinked created filled cause cleared deleted =>
    exact orderly_discard (hlink created filled _) (.inr (failed_concat [_, _] ..)) cleared deleted
  | linked created filled linked h =>
    exact h.orderly (fun _ hold => hold) (hlink created filled _) (succeeded_concat [_, _] ..)

theorem Permitted.of_bulkInsert {id : ChainId} {position : Nat} {rules : List Rule}
    (h : Permitted set found fresh before ⟨id, .bulkInsert position rules⟩) :
    (⟨id, .bulkInsert position rules⟩ : Call) = linking set fresh ∧ Succeeded before (creation set fresh) ∧
      Succeeded before (filling set fresh) := by
  generalize hcall : (⟨id, .bulkInsert position rules⟩ : Call) = call at h ⊢
  cases h with
  | link hcreated hfilled => exact ⟨rfl, hcreated, hfilled⟩
  | _ => cases hcall

theorem Permitted.of_clearChain {id : ChainId} (h : Permitted set found fresh before ⟨id, .clearChain⟩) :
    (id = set.chain.generationId fresh ∧ Abandons set fresh before) ∨
      ∃ old ∈ found, id = set.chain.generationId old ∧ Succeeded before (unlinking set.chain old) := by
  generalize hcall : (⟨id, .clearChain⟩ : Call) = call at h
  cases h with
  | abandonClear habandons => exact .inl ⟨congrArg Call.chain hcall, habandons⟩
  | clear hold hunlinked => exact .inr ⟨_, hold, congrArg Call.chain hcall, hunlinked⟩
  | _ => cases hcall

theorem Permitted.of_deleteChain {id : ChainId} (h : Permitted set found fresh before ⟨id, .deleteChain⟩) :
    (id = set.chain.generationId fresh ∧ Abandons set fresh before) ∨
      ∃ old ∈ found, id = set.chain.generationId old ∧ Succeeded before (clearing set.chain old) := by
  generalize hcall : (⟨id, .deleteChain⟩ : Call) = call at h
  cases h with
  | abandonDelete habandons => exact .inl ⟨congrArg Call.chain hcall, habandons⟩
  | delete hold hcleared => exact .inr ⟨_, hold, congrArg Call.chain hcall, hcleared⟩
  | _ => cases hcall

/-! ## What has been done at the end -/

/-- Whether every call succeeded. -/
def AllSucceeded (events : List Event) : Prop := ∀ call reply, .called call reply ∈ events → ∃ lines, reply = .ok lines

theorem allSucceeded_cons_ok {lines : List String} :
    AllSucceeded (.called call (.ok lines) :: events) ↔ AllSucceeded events := by
  constructor
  · intro h call reply hmem
    exact h call reply (List.mem_cons_of_mem _ hmem)
  · intro h other reply hmem
    rcases List.mem_cons.mp hmem with heq | hmem
    · obtain ⟨-, rfl⟩ := Event.called.inj heq
      exact ⟨lines, rfl⟩
    · exact h other reply hmem

theorem Failed.not_allSucceeded (h : Failed events call) : ¬ AllSucceeded events := by
  intro hall
  obtain ⟨cause, hmem⟩ := h
  obtain ⟨lines, hlines⟩ := hall call _ hmem
  cases hlines

theorem Failed.error_iff (h : Failed events call) (cause : EnforceError) :
    (.error cause : Except EnforceError Unit) = .ok () ↔ AllSucceeded events := by
  constructor
  · intro hok
    cases hok
  · intro hall
    exact absurd hall h.not_allSucceeded

theorem Removes.ok_iff (h : Removes chain found events result) : result = .ok () ↔ AllSucceeded events := by
  induction h with
  | done => simp [AllSucceeded]
  | notUnlinked old rest cause => exact (failed_concat [] _ cause).error_iff _
  | notCleared old rest unlinked cause => exact (failed_concat [_] _ cause).error_iff _
  | notDeleted old rest unlinked cleared cause => exact (failed_concat [_, _] _ cause).error_iff _
  | removed old unlinked cleared deleted h ih =>
    rw [allSucceeded_cons_ok, allSucceeded_cons_ok, allSucceeded_cons_ok]
    exact ih

/-- If removing generations ends well, all of them have been removed in turn. -/
theorem Removes.calls_of_ok (h : Removes chain found events result) (hok : result = .ok ()) :
    events.filterMap Event.call? = found.flatMap (removal chain) := by
  induction h with
  | done => rfl
  | removed old unlinked cleared deleted h ih =>
    rw [List.flatMap_cons, ← ih hok]
    rfl
  | _ => cases hok

theorem Removes.mem_removal (h : Removes chain found events result) {reply : Reply}
    (hmem : .called call reply ∈ events) : ∃ old ∈ found, call ∈ removal chain old := by
  induction h with
  | done => cases hmem
  | notUnlinked old rest cause =>
    have hcall : call ∈ removal chain old := by simp_all [removal]
    exact ⟨old, List.mem_cons_self .., hcall⟩
  | notCleared old rest unlinked cause =>
    have hcall : call ∈ removal chain old := by grind [removal]
    exact ⟨old, List.mem_cons_self .., hcall⟩
  | notDeleted old rest unlinked cleared cause =>
    have hcall : call ∈ removal chain old := by grind [removal]
    exact ⟨old, List.mem_cons_self .., hcall⟩
  | @removed old rest unlinked cleared deleted later result h ih =>
    by_cases hlater : .called call reply ∈ later
    · obtain ⟨other, hother, hcall⟩ := ih hlater
      exact ⟨other, List.mem_cons_of_mem old hother, hcall⟩
    · have hcall : call ∈ removal chain old := by grind [removal]
      exact ⟨old, List.mem_cons_self .., hcall⟩

theorem Removes.ne_createChain (h : Removes chain found events result) (cause : Filter.Error) :
    result ≠ .error (.createChain cause) := by
  induction h with
  | removed old unlinked cleared deleted h ih => exact ih
  | _ =>
    intro heq
    cases heq

/-- The error for a chain that cannot be added says so of the first call. -/
theorem Course.createChain_iff {reply : Reply}
    (h : Course set found fresh (.called (creation set fresh) reply :: later) result) :
    (∃ cause, result = .error (.createChain cause)) ↔ ∃ cause, reply = .error cause := by
  cases h with
  | notCreated cause => simp
  | linked created filled linked h =>
    constructor
    · rintro ⟨cause, hresult⟩
      exact absurd hresult (h.ne_createChain cause)
    · rintro ⟨cause, hreply⟩
      cases hreply
  | _ => simp

/-- On any host, replacing generations ends in the error for a chain that cannot be added if and only if adding the fresh
generation fails. -/
theorem createChain_iff {σ : Type} (host : Host σ) (set : RuleSet) (found : List Nat) (now : Nat) (state : σ) :
    (∃ cause, ((replace set found now).run host state).1 = .error (.createChain cause)) ↔
      ∃ cause, (host.perform state (creation set (Generation.next found now))).1 = .error cause := by
  have hcourse : Course set found (Generation.next found now)
      (.called _ (host.perform state (creation set (Generation.next found now))).1 :: _) _ :=
    course_of_follows (Program.follows_trace host (replace set found now) state)
  exact hcourse.createChain_iff

theorem Course.ok_iff (h : Course set found fresh events result) : result = .ok () ↔ AllSucceeded events := by
  cases h with
  | notCreated cause => exact (failed_concat [] _ cause).error_iff _
  | notFilled created cause cleared deleted =>
    have hfailed := failed_concat [.called (creation set fresh) (.ok created)] (filling set fresh) cause
    exact (hfailed.append_right _).error_iff _
  | notLinked created filled cause cleared deleted =>
    have hfailed := failed_concat [.called (creation set fresh) (.ok created),
      .called (filling set fresh) (.ok filled)] (linking set fresh) cause
    exact (hfailed.append_right _).error_iff _
  | linked created filled linked h =>
    rw [allSucceeded_cons_ok, allSucceeded_cons_ok, allSucceeded_cons_ok]
    exact h.ok_iff

theorem Course.calls_of_ok (h : Course set found fresh events result) (hok : result = .ok ()) :
    events.filterMap Event.call? =
      [creation set fresh, filling set fresh, linking set fresh] ++ found.flatMap (removal set.chain) := by
  cases h with
  | linked created filled linked h =>
    rw [← h.calls_of_ok hok]
    rfl
  | _ => cases hok

/-- If the fresh generation could not be filled or not be linked, it is emptied and deleted, and all calls are on it but
the one that was to link it. -/
theorem Course.of_abandons (h : Course set found fresh events result) (habandons : Abandons set fresh events) :
    Called events (clearing set.chain fresh) ∧ Called events (deletion set.chain fresh) ∧
      ∀ call reply, .called call reply ∈ events → call.chain = set.chain.generationId fresh ∨ call = linking set fresh := by
  cases h with
  | notCreated cause =>
    exfalso
    simp [Abandons, Failed, creation, filling, linking] at habandons
  | notFilled created cause cleared deleted =>
    refine ⟨⟨cleared, by simp⟩, ⟨deleted, by simp⟩, ?_⟩
    intro call reply hmem
    simp only [List.mem_cons, List.not_mem_nil, or_false, Event.called.injEq] at hmem
    rcases hmem with ⟨rfl, -⟩ | ⟨rfl, -⟩ | ⟨rfl, -⟩ | ⟨rfl, -⟩
    all_goals exact .inl rfl
  | notLinked created filled cause cleared deleted =>
    refine ⟨⟨cleared, by simp⟩, ⟨deleted, by simp⟩, ?_⟩
    intro call reply hmem
    simp only [List.mem_cons, List.not_mem_nil, or_false, Event.called.injEq] at hmem
    rcases hmem with ⟨rfl, -⟩ | ⟨rfl, -⟩ | ⟨rfl, -⟩ | ⟨rfl, -⟩ | ⟨rfl, -⟩
    case inr.inr.inl => exact .inr rfl
    all_goals exact .inl rfl
  | @linked created filled linked later _ h =>
    -- the three calls succeeded, and none that removes a generation fills or links one
    exfalso
    have hfailed {call : Call} (hfailed : Failed later call) : ∃ old, call ∈ removal set.chain old := by
      obtain ⟨cause, hmem⟩ := hfailed
      obtain ⟨old, -, hcall⟩ := h.mem_removal hmem
      exact ⟨old, hcall⟩
    have hlater : Failed later (filling set fresh) ∨ Failed later (linking set fresh) := by
      simpa [Abandons, Failed] using habandons
    rcases hlater with hfilling | hlinking
    · obtain ⟨old, hcall⟩ := hfailed hfilling
      simp [removal, filling, unlinking, clearing, deletion] at hcall
    · obtain ⟨old, hcall⟩ := hfailed hlinking
      simp [removal, linking, unlinking, clearing, deletion] at hcall

/-! ## The discipline -/

/-- Whether each time that a call is made, something holds of what came before it. -/
def Preceded (events : List Event) (call : Call) (past : List Event → Prop) : Prop :=
  ∀ before reply after, events = before ++ .called call reply :: after → past before

/-- Whether a generation is found in the lines of a listing. -/
def Found (chain : Chain) (lines : List String) (old : Nat) : Prop :=
  ∃ line ∈ lines, Generation.inLine? chain.stem line = some old

/-- What has to hold of all that happens after the parent was listed and the clock was read, and of the result. -/
structure Disciplined (set : RuleSet) (lines : List String) (now fresh : Nat) (events : List Event)
    (result : Except EnforceError Unit) : Prop where
  calls : ∀ event ∈ events, ∃ call reply, event = .called call reply
  first : ∃ reply later, events = .called (creation set fresh) reply :: later
  notBefore : now ≤ fresh
  newer : ∀ old, Found set.chain lines old → old < fresh
  links : ∀ id position rules, Preceded events ⟨id, .bulkInsert position rules⟩ fun before =>
    (⟨id, .bulkInsert position rules⟩ : Call) = linking set fresh ∧ Succeeded before (creation set fresh) ∧
      Succeeded before (filling set fresh)
  clears : ∀ id, id ≠ set.chain.generationId fresh → Preceded events ⟨id, .clearChain⟩ fun before =>
    ∃ old, Found set.chain lines old ∧ id = set.chain.generationId old ∧ Succeeded before (unlinking set.chain old)
  deletes : ∀ id, id ≠ set.chain.generationId fresh → Preceded events ⟨id, .deleteChain⟩ fun before =>
    Succeeded before ⟨id, .clearChain⟩
  clears_fresh : Called events (clearing set.chain fresh) ↔ Abandons set fresh events
  deletes_fresh : Called events (deletion set.chain fresh) ↔ Abandons set fresh events
  abandons : Abandons set fresh events → ∀ call reply, .called call reply ∈ events →
    call.chain = set.chain.generationId fresh ∨ call = linking set fresh
  ok_iff : result = .ok () ↔ AllSucceeded events
  removes : result = .ok () → ∃ found : List Nat, found.Pairwise (· < ·) ∧ (∀ old, old ∈ found ↔ Found set.chain lines old) ∧
    events.filterMap Event.call? =
      [creation set fresh, filling set fresh, linking set fresh] ++ found.flatMap (removal set.chain)

theorem Orderly.permitted {reply : Reply} {after : List Event} (h : Orderly set found fresh events)
    (hsplit : events = before ++ .called call reply :: after) : Permitted set found fresh before call := by
  obtain ⟨_, _, hevent, hpermitted⟩ := h before _ after hsplit
  obtain ⟨rfl, rfl⟩ := Event.called.inj hevent
  exact hpermitted

/-- The fresh generation is not emptied or deleted before it has been abandoned, as it is not one of those found. -/
theorem Orderly.abandons_of_called (h : Orderly set found fresh events) (hnewer : ∀ old ∈ found, old < fresh)
    (hcalled : Called events (clearing set.chain fresh) ∨ Called events (deletion set.chain fresh)) :
    Abandons set fresh events := by
  have hgrown {before after : List Event} {event : Event} (habandons : Abandons set fresh before) :
      Abandons set fresh (before ++ event :: after) :=
    habandons.imp (fun hfailed => hfailed.append_right _) (fun hfailed => hfailed.append_right _)
  have hother {old : Nat} (hold : old ∈ found) : set.chain.generationId fresh ≠ set.chain.generationId old := by
    intro heq
    rw [generationId_inj] at heq
    exact Nat.ne_of_gt (hnewer old hold) heq
  rcases hcalled with ⟨reply, hmem⟩ | ⟨reply, hmem⟩
  · obtain ⟨before, after, rfl⟩ := List.append_of_mem hmem
    rcases (h.permitted rfl).of_clearChain with ⟨-, habandons⟩ | ⟨old, hold, heq, -⟩
    · exact hgrown habandons
    · exact absurd heq (hother hold)
  · obtain ⟨before, after, rfl⟩ := List.append_of_mem hmem
    rcases (h.permitted rfl).of_deleteChain with ⟨-, habandons⟩ | ⟨old, hold, heq, -⟩
    · exact hgrown habandons
    · exact absurd heq (hother hold)

theorem Course.first (h : Course set found fresh events result) :
    ∃ reply later, events = .called (creation set fresh) reply :: later := by
  cases h
  all_goals exact ⟨_, _, rfl⟩

theorem Course.disciplined {lines : List String}
    (h : Course set (Generation.inListing set.chain.stem lines)
      (Generation.next (Generation.inListing set.chain.stem lines) now) events result) :
    Disciplined set lines now (Generation.next (Generation.inListing set.chain.stem lines) now) events result := by
  have hfound (old : Nat) : old ∈ Generation.inListing set.chain.stem lines ↔ Found set.chain lines old :=
    Generation.mem_inListing
  have hsorted := Generation.pairwise_inListing set.chain.stem lines
  have hnewer := Generation.lt_next hsorted now
  have hnotBefore := Generation.le_next (Generation.inListing set.chain.stem lines) now
  generalize Generation.inListing set.chain.stem lines = found at h hfound hsorted hnewer hnotBefore ⊢
  generalize Generation.next found now = fresh at h hnewer hnotBefore ⊢
  have horderly := h.orderly
  refine ⟨?_, h.first, hnotBefore, ?_, ?_, ?_, ?_, ?_, ?_, ?_, h.ok_iff, ?_⟩
  · intro event hevent
    obtain ⟨before, after, hsplit⟩ := List.append_of_mem hevent
    obtain ⟨call, reply, hcall, -⟩ := horderly before event after hsplit
    exact ⟨call, reply, hcall⟩
  · intro old hold
    exact hnewer old ((hfound old).mpr hold)
  · intro id position rules before reply after hsplit
    exact (horderly.permitted hsplit).of_bulkInsert
  · intro id hid before reply after hsplit
    rcases (horderly.permitted hsplit).of_clearChain with ⟨heq, -⟩ | ⟨old, hold, heq, hunlinked⟩
    · exact absurd heq hid
    · exact ⟨old, (hfound old).mp hold, heq, hunlinked⟩
  · intro id hid before reply after hsplit
    rcases (horderly.permitted hsplit).of_deleteChain with ⟨heq, -⟩ | ⟨old, -, rfl, hcleared⟩
    · exact absurd heq hid
    · exact hcleared
  · exact ⟨fun hcalled => horderly.abandons_of_called hnewer (.inl hcalled),
      fun habandons => (h.of_abandons habandons).1⟩
  · exact ⟨fun hcalled => horderly.abandons_of_called hnewer (.inr hcalled),
      fun habandons => (h.of_abandons habandons).2.1⟩
  · intro habandons
    exact (h.of_abandons habandons).2.2
  · intro hok
    exact ⟨found, hsorted, hfound, h.calls_of_ok hok⟩

/-- Whatever packet filter a rule set is put into force on, either its parent cannot be listed and nothing else is done,
or all that is done after that, and the clock was read, is disciplined. -/
theorem enforce_disciplined {σ : Type} (host : Host σ) (set : RuleSet) (state : σ) :
    (∃ cause, ((enforce set).trace host state).map Prod.fst = [.called ⟨set.chain.parentId, .list⟩ (.error cause)] ∧
      ((enforce set).run host state).1 = .error (.list set.chain.parent cause)) ∨
    ∃ lines now fresh events, ((enforce set).trace host state).map Prod.fst =
        .called ⟨set.chain.parentId, .list⟩ (.ok lines) :: .read now :: events ∧
      Disciplined set lines now fresh events ((enforce set).run host state).1 := by
  have h := Program.follows_trace host (enforce set) state
  generalize ((enforce set).trace host state).map Prod.fst = events at h ⊢
  generalize ((enforce set).run host state).1 = result at h ⊢
  rw [enforce_eq] at h
  obtain ⟨listed, later, rfl, hlisted⟩ := h.of_call
  cases listed with
  | error cause =>
    obtain ⟨rfl, rfl⟩ := hlisted.of_done
    exact .inl ⟨cause, rfl, rfl⟩
  | ok lines =>
    obtain ⟨now, events, rfl, hreplaced⟩ := hlisted.of_clock
    exact .inr ⟨lines, now, _, events, rfl, (course_of_follows hreplaced).disciplined⟩

/-- A filter that carries out every call, and lists lines in which generations stand twice, out of order, behind another
one, or with too few digits. -/
def carelessHost : Host Unit where
  perform _ call := (.ok (if call.operation = .list then ["-A FORWARD -j p-1700000005",
    "-A FORWARD -j p-0000000003 -j p-1700000009", "p-1700000005", "-A FORWARD -j p-170000000"] else []), ())
  now _ := (1700000000, ())

example : (((enforce ⟨⟨"filter", "FORWARD", "p-"⟩, []⟩).trace carelessHost ()).filterMap
    fun event => event.1.call?.map Call.render) =
      ["list filter FORWARD", "new_chain filter p-1700000006", "bulk_append filter p-1700000006",
        "bulk_insert filter FORWARD", "delete filter FORWARD", "clear_chain filter p-0000000003",
        "delete_chain filter p-0000000003", "delete filter FORWARD", "clear_chain filter p-1700000005",
        "delete_chain filter p-1700000005"] := by
  decide

end Enforcer

end OverlayHost
