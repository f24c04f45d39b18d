import OverlayHost.Filter.Memory
import OverlayHost.Filter.Program
import Mathlib.Data.List.Basic

/-!
# Programs whose calls may fail

What tables may answer to a call if some kinds of calls can be made to fail, and what a program ensures whatever it is
answered. `Program.Ensures` follows the program call by call, so it speaks about every point at which a program can be
stopped; `Ensures.run` brings what it says to a run on a host.
-/

set_option autoImplicit false

namespace OverlayHost.Filter

/-! ## Answers -/

/-- What tables may answer to a call, and the tables afterwards, if calls of some kinds can be made to fail. -/
inductive Tables.Answers (fails : Kind → Prop) (tables : Tables) (call : Call) : Reply → Tables → Prop
  /-- The call was chosen to fail. -/
  | injected (h : fails call.operation.kind) :
    Answers fails tables call (.error (Refusal.injected call.operation.kind).toError) tables
  /-- The tables refuse the call. -/
  | refused {refusal : Refusal} (h : tables.apply call = .error refusal) :
    Answers fails tables call (.error refusal.toError) tables
  /-- The call is carried out. -/
  | done {lines : List String} {after : Tables} (h : tables.apply call = .ok (lines, after)) :
    Answers fails tables call (.ok lines) after

variable {fails : Kind → Prop} {tables after : Tables} {call : Call} {reply : Reply}

/-- A call either fails and changes nothing, or is carried out. -/
theorem Tables.Answers.cases (h : tables.Answers fails call reply after) :
    (∃ cause, reply = .error cause ∧ after = tables ∧
      (fails call.operation.kind ∨ ∃ refusal, tables.apply call = .error refusal)) ∨
    ∃ lines, reply = .ok lines ∧ tables.apply call = .ok (lines, after) := by
  cases h with
  | injected hfails => exact .inl ⟨_, rfl, rfl, .inl hfails⟩
  | refused hrefused => exact .inl ⟨_, rfl, rfl, .inr ⟨_, hrefused⟩⟩
  | done hdone => exact .inr ⟨_, rfl, hdone⟩

theorem Tables.Answers.mono {others : Kind → Prop} (h : tables.Answers fails call reply after)
    (hmono : ∀ kind, fails kind → others kind) : tables.Answers others call reply after := by
  cases h with
  | injected hfails => exact .injected (hmono _ hfails)
  | refused hrefused => exact .refused hrefused
  | done hdone => exact .done hdone

/-- A call that can be carried out, of a kind that cannot be made to fail, is carried out. -/
theorem Tables.Answers.eq_of_apply {lines : List String} {target : Tables}
    (h : tables.Answers fails call reply after) (hfails : ¬ fails call.operation.kind)
    (happly : tables.apply call = .ok (lines, target)) : reply = .ok lines ∧ after = target := by
  rcases h.cases with ⟨cause, -, -, hkind | ⟨refusal, hrefused⟩⟩ | ⟨found, hreply, hdone⟩
  · exact absurd hkind hfails
  · rw [happly] at hrefused
    cases hrefused
  · rw [happly] at hdone
    cases hdone
    exact ⟨hreply, rfl⟩

/-- An operation is found again by its name. -/
theorem Kind.find?_name (kind : Kind) : Kind.all.find? (fun other => other.name = kind.name) = some kind := by
  cases kind <;> decide

theorem Kind.name_injective {kind other : Kind} (h : kind.name = other.name) : kind = other := by
  apply Option.some.inj
  rw [← find?_name kind, h, find?_name]

theorem Tables.apply_ne_injected (tables : Tables) (call : Call) (kind : Kind) :
    tables.apply call ≠ .error (Refusal.injected kind) := by
  obtain ⟨id, operation⟩ := call
  intro h
  cases operation
  all_goals
    simp only [Tables.apply] at h
    repeat' split at h
    all_goals cases h

theorem Tables.eq_injected_of_toError {refusal : Refusal} {kind : Kind}
    (h : refusal.toError = (Refusal.injected kind).toError) : refusal = .injected kind := by
  cases refusal with
  | injected other => rw [Kind.name_injective (Error.exited.inj h).1]
  | _ => simp [Refusal.toError] at h

/-- An answer says that a failure was injected only if calls of the kind can be made to fail. -/
theorem Tables.Answers.of_injected {kind : Kind} (h : tables.Answers fails call reply after)
    (hreply : reply = .error (Refusal.injected kind).toError) : call.operation.kind = kind ∧ fails kind := by
  cases h with
  | injected hfails =>
    have hkind := Refusal.injected.inj (eq_injected_of_toError (Except.error.inj hreply))
    exact ⟨hkind, hkind ▸ hfails⟩
  | @refused refusal hrefused =>
    have hinjected := eq_injected_of_toError (Except.error.inj hreply)
    exact absurd (hinjected ▸ hrefused) (apply_ne_injected tables call kind)
  | done _ => cases hreply

namespace Memory

/-- A filter in memory answers as its tables may, if what is pending can fail. -/
theorem perform_answers (memory : Memory) (call : Call) :
    memory.tables.Answers (· ∈ memory.pending) call (memory.perform call).1 (memory.perform call).2.tables := by
  unfold perform
  dsimp only
  split
  next hpending => exact .injected (List.contains_iff_mem.mp hpending)
  next =>
    cases happly : memory.tables.apply call with
    | error refusal => exact .refused happly
    | ok result =>
      obtain ⟨lines, tables⟩ := result
      exact .done happly

/-- A call takes its operation out of what is pending, once. -/
theorem pending_perform (memory : Memory) (call : Call) :
    (memory.perform call).2.pending = memory.pending.erase call.operation.kind := by
  unfold perform
  dsimp only
  split
  next => rfl
  next hpending =>
    rw [List.contains_iff_mem] at hpending
    rw [List.erase_of_not_mem hpending]
    cases memory.tables.apply call <;> rfl

/-- A call makes no new failure pending. -/
theorem pending_perform_subset (memory : Memory) (call : Call) :
    ∀ kind ∈ (memory.perform call).2.pending, kind ∈ memory.pending := by
  intro kind hkind
  rw [pending_perform] at hkind
  exact List.mem_of_mem_erase hkind

/-- A filter in memory as a host whose clock stands still. -/
def host (now : Nat) : Host Memory where
  perform := perform
  now memory := (now, memory)

end Memory

/-! ## Programs -/

namespace Program

variable {α σ τ : Type} {step : σ → Call → Reply → σ → Prop} {inv : σ → Prop} {post : α → σ → Prop}

/-- However its calls are answered and whatever the clock shows, a program keeps to an invariant after every call and
ends in what is asked of its result. -/
def Ensures (step : σ → Call → Reply → σ → Prop) (inv : σ → Prop) (post : α → σ → Prop) : Program α → σ → Prop
  | .done result, state => post result state
  | .call request next, state =>
    ∀ reply after, step state request reply after → inv after ∧ Ensures step inv post (next reply) after
  | .clock next, state => ∀ now, Ensures step inv post (next now) state

/-- What a program ensures can be weakened. -/
theorem Ensures.mono {weakInv : σ → Prop} {weakPost : α → σ → Prop} (hinv : ∀ state, inv state → weakInv state)
    (hpost : ∀ result state, post result state → weakPost result state) {program : Program α} {state : σ}
    (h : program.Ensures step inv post state) : program.Ensures step weakInv weakPost state := by
  induction program generalizing state with
  | done result => exact hpost _ _ h
  | call request next ih =>
    intro reply after hstep
    obtain ⟨hafter, hnext⟩ := h reply after hstep
    exact ⟨hinv _ hafter, ih _ hnext⟩
  | clock next ih => exact fun now => ih now (h now)

/-- A run on a host ends in what the program ensures, if the host answers as `step` allows in all states that
satisfy `good`, stays in them, and its clock changes nothing. -/
theorem Ensures.run (host : Host τ) (view : τ → σ) (good : τ → Prop)
    (hperform : ∀ state call, good state →
      step (view state) call (host.perform state call).1 (view (host.perform state call).2) ∧
        good (host.perform state call).2)
    (hnow : ∀ state, good state → view (host.now state).2 = view state ∧ good (host.now state).2)
    {program : Program α} {state : τ} (hgood : good state) (h : program.Ensures step inv post (view state)) :
    post (program.run host state).1 (view (program.run host state).2) ∧ good (program.run host state).2 := by
  induction program generalizing state with
  | done result => exact ⟨h, hgood⟩
  | call request next ih =>
    obtain ⟨hstep, hafter⟩ := hperform state request hgood
    exact ih _ hafter (h _ _ hstep).2
  | clock next ih =>
    obtain ⟨hview, hafter⟩ := hnow state hgood
    have hnext := h (host.now state).1
    rw [← hview] at hnext
    exact ih _ hafter hnext

/-- A run on a filter in memory ends in what the program ensures of tables where all that is pending can fail. -/
theorem Ensures.run_memory {fails : Kind → Prop} {inv : Tables → Prop} {post : α → Tables → Prop}
    {program : Program α} {memory : Memory} (hfails : ∀ kind ∈ memory.pending, fails kind)
    (h : program.Ensures (Tables.Answers fails) inv post memory.tables) (now : Nat) :
    post (program.run (Memory.host now) memory).1 (program.run (Memory.host now) memory).2.tables := by
  refine (Ensures.run (Memory.host now) Memory.tables (fun state => ∀ kind ∈ state.pending, fails kind) ?_ ?_ hfails h).1
  · intro state call hgood
    refine ⟨(state.perform_answers call).mono hgood, ?_⟩
    intro kind hkind
    exact hgood kind (state.pending_perform_subset call kind hkind)
  · intro state hgood
    exact ⟨rfl, hgood⟩

/-- A property that calls cannot take back, once lost, makes up for everything asked under it. -/
theorem ensures_of_not (fact : σ → Prop)
    (hback : ∀ state call reply after, step state call reply after → fact after → fact state)
    (program : Program α) {state : σ} (h : ¬ fact state) :
    program.Ensures step (fun state => fact state → inv state) (fun result state => fact state → post result state)
      state := by
  induction program generalizing state with
  | done result => exact fun hfact => absurd hfact h
  | call request next ih =>
    intro reply after hstep
    have hafter : ¬ fact after := fun hfact => h (hback _ _ _ _ hstep hfact)
    exact ⟨fun hfact => absurd hfact hafter, ih _ hafter⟩
  | clock next ih => exact fun now => ih now h

/-! ## Runs without failures -/

/-- Where nothing is made to fail, a program with a clock that stands still answers a result and leaves tables. -/
def Yields (program : Program α) (now : Nat) (before : Tables) (result : α) (after : Tables) : Prop :=
  ∀ memory : Memory, memory.tables = before → memory.pending = [] →
    (program.run (Memory.host now) memory).1 = result ∧
      (program.run (Memory.host now) memory).2.tables = after ∧
      (program.run (Memory.host now) memory).2.pending = []

variable {now : Nat} {result : α}

theorem yields_done (result : α) (now : Nat) (tables : Tables) :
    (Program.done result).Yields now tables result tables := by
  intro memory htables hpending
  exact ⟨rfl, htables, hpending⟩

/-- A call that can be carried out is carried out, and the program goes on from there. -/
theorem yields_call {request : Call} {next : Reply → Program α} {before middle after : Tables} {lines : List String}
    (happly : before.apply request = .ok (lines, middle)) (hnext : (next (.ok lines)).Yields now middle result after) :
    (Program.call request next).Yields now before result after := by
  rintro memory rfl hpending
  have hperform : memory.perform request =
      (.ok lines, { memory with calls := memory.calls ++ [request], tables := middle }) := by
    unfold Memory.perform
    simp [hpending, happly]
  have hrun := hnext { memory with calls := memory.calls ++ [request], tables := middle } rfl hpending
  simp only [Program.run, Memory.host, hperform] at hrun ⊢
  exact hrun

theorem yields_clock {next : Nat → Program α} {before after : Tables} (hnext : (next now).Yields now before result after) :
    (Program.clock next).Yields now before result after :=
  hnext

end Program

end OverlayHost.Filter
