import OverlayHost.RoundRobin
import Mathlib

/-!
# A rotation with many callers

Callers that share one rotation. A call looks whether there are items, takes the cursor and gets its item; only the taking
of the cursor is one step for everybody, and anything may happen between the steps of a call. Calls are numbered in the
order in which they take the cursor, and `fair_of_run` says what each of them gets: the items in turn, whoever calls.
-/

set_option autoImplicit false

namespace OverlayHost.RoundRobin

variable {α κ : Type} {items : List α}

/-! ## Turns -/

/-- A rotation in which a number of turns were given. -/
def afterTurns (items : List α) (turns : Nat) : RoundRobin α := { items, cursor := .ofNat turns }

theorem next_afterTurns (hitems : items ≠ []) (turns : Nat) :
    (afterTurns items turns).next = (items[turns % 2 ^ 64 % items.length]?, afterTurns items (turns + 1)) := by
  have hnonempty : (afterTurns items turns).isEmpty = false := by
    rw [isEmpty, afterTurns, List.isEmpty_eq_false_iff]
    exact hitems
  have hcursor : UInt64.ofNat turns + 1 = UInt64.ofNat (turns + 1) := by
    rw [UInt64.ofNat_add]
    rfl
  rw [next, hnonempty]
  simp only [Bool.false_eq_true, if_false, afterTurns, UInt64.toNat_ofNat', hcursor]

theorem exists_next_afterTurns (hitems : items ≠ []) (turns : Nat) :
    ∃ item, (afterTurns items turns).next = (some item, afterTurns items (turns + 1)) := by
  have hlt : turns % 2 ^ 64 % items.length < items.length := Nat.mod_lt _ (List.length_pos_iff.mpr hitems)
  exact ⟨items[turns % 2 ^ 64 % items.length], by rw [next_afterTurns hitems, List.getElem?_eq_getElem hlt]⟩

/-- The items that a number of turns hand out, in order. -/
def dealt (items : List α) (turns : Nat) : List (Option α) :=
  (List.range turns).map fun turn => items[turn % items.length]?

theorem dealt_of_le {turns : Nat} (h : turns ≤ items.length) : dealt items turns = (items.take turns).map some := by
  apply List.ext_getElem
  · simp [dealt]
    omega
  · intro turn hturn _
    have hlt : turn < items.length := by
      simp [dealt] at hturn
      omega
    simp [dealt, Nat.mod_eq_of_lt hlt, hlt]

theorem dealt_length_add (items : List α) (turns : Nat) :
    dealt items (items.length + turns) = items.map some ++ dealt items turns := by
  have hround : dealt items items.length = items.map some := by simp [dealt_of_le le_rfl]
  rw [← hround]
  simp [dealt, List.range_add]

/-- Every item is handed out in every round, and at most once more. -/
theorem count_dealt [DecidableEq α] (hitems : items ≠ []) (item : α) (turns : Nat) :
    turns / items.length * items.count item ≤ (dealt items turns).count (some item) ∧
      (dealt items turns).count (some item) ≤ (turns + items.length - 1) / items.length * items.count item := by
  have hcount (list : List α) : (list.map some).count (some item) = list.count item :=
    List.count_map_of_injective list some (Option.some_injective α) item
  have hpos : 0 < items.length := List.length_pos_iff.mpr hitems
  induction turns using Nat.strongRecOn with | _ turns ih
  by_cases hlt : turns < items.length
  · have htake := (items.take_sublist turns).count_le item
    rw [dealt_of_le hlt.le, hcount, Nat.div_eq_of_lt hlt, Nat.zero_mul]
    refine ⟨Nat.zero_le _, ?_⟩
    rcases Nat.eq_zero_or_pos turns with rfl | hsome
    · simp
    · have hone : (turns + items.length - 1) / items.length = 1 := by
        rw [Nat.div_eq_iff hpos]
        omega
      rwa [hone, Nat.one_mul]
  · obtain ⟨rest, rfl⟩ := Nat.exists_eq_add_of_le (Nat.not_lt.mp hlt)
    obtain ⟨hleast, hmost⟩ := ih rest (by omega)
    have hrounds : (items.length + rest + items.length - 1) / items.length =
        (rest + items.length - 1) / items.length + 1 := by
      rw [show items.length + rest + items.length - 1 = rest + items.length - 1 + items.length by omega,
        Nat.add_div_right _ hpos]
    rw [dealt_length_add, List.count_append, hcount, Nat.add_div_left _ hpos, hrounds, Nat.succ_mul, Nat.succ_mul]
    omega

/-- Every place comes up in every round, and at most once more. -/
theorem countP_place {n place : Nat} (hplace : place < n) (turns : Nat) :
    (List.range turns).countP (fun turn => turn % n = place) = turns / n ∨
      (List.range turns).countP (fun turn => turn % n = place) = (turns + n - 1) / n := by
  have hn : 0 < n := by omega
  have hplaces : dealt (List.range n) turns = (List.range turns).map fun turn => some (turn % n) := by
    simp [dealt, Nat.mod_lt _ hn]
  have honce : (List.range n).count place = 1 :=
    List.count_eq_one_of_mem List.nodup_range (List.mem_range.mpr hplace)
  have hnonempty : List.range n ≠ [] := by simp; omega
  have hbounds := count_dealt hnonempty place turns
  have hmost : (turns + n - 1) / n ≤ turns / n + 1 := by
    rw [← Nat.add_div_right _ hn]
    exact Nat.div_le_div_right (by omega)
  rw [hplaces, honce, List.length_range, List.count, List.countP_map] at hbounds
  simp only [Function.comp_def, beq_eq_decide, Option.some.injEq, Nat.mul_one] at hbounds
  omega

/-! ## Callers and their calls -/

/-- The item that a cursor stands for. -/
def itemAt (rotation : RoundRobin α) (cursor : UInt64) : Option α :=
  rotation.items[cursor.toNat % rotation.items.length]?

/-- The rotation after its cursor was taken. -/
def advance (rotation : RoundRobin α) : RoundRobin α := { rotation with cursor := rotation.cursor + 1 }

/-- How far a caller is with its call. -/
inductive Stage where
  | idle
  /-- It has seen that there are items. -/
  | admitted
  /-- It has taken the cursor, as the call of a number. -/
  | holding (turn : Nat) (cursor : UInt64)
deriving DecidableEq

/-- A rotation with its callers, and a record of their calls. -/
structure Shared (κ α : Type) where
  rotation : RoundRobin α
  stage : κ → Stage := fun _ => .idle
  /-- What the calls returned that took the cursor, in the order of its taking; nothing yet, while a call is under way. -/
  answers : List (Option (Option α)) := []
  /-- How many calls saw that there was nothing, and returned no item. -/
  turnedAway : Nat := 0

namespace Shared

/-- Callers of a new rotation. -/
def start (κ : Type) (items : List α) : Shared κ α := { rotation := .ofList items }

/-- What the call of a number returned, if it has. -/
def answer? (state : Shared κ α) (turn : Nat) : Option (Option α) := state.answers[turn]?.join

/-- How many calls returned what stands at a place. -/
def timesHanded (state : Shared κ α) (place : Nat) : Nat :=
  (List.range state.answers.length).countP fun turn =>
    (state.answer? turn).isSome && turn % state.rotation.items.length = place

/-- Cursors are numbers of calls: the rotation stands at the next one, a call under way holds its own, and a call that has
returned got what its number stands for. -/
structure Kept (items : List α) (state : Shared κ α) : Prop where
  rotation : state.rotation = afterTurns items state.answers.length
  turnedAway : state.turnedAway = 0
  held : ∀ caller turn cursor, state.stage caller = .holding turn cursor →
    cursor = .ofNat turn ∧ state.answers[turn]? = some none
  holder : ∀ turn, state.answers[turn]? = some none → ∃ caller cursor, state.stage caller = .holding turn cursor
  alone : ∀ caller other turn cursor cursor', state.stage caller = .holding turn cursor →
    state.stage other = .holding turn cursor' → caller = other
  answered : ∀ turn answer, state.answer? turn = some answer → answer = items[turn % 2 ^ 64 % items.length]?

variable {state : Shared κ α} {caller : κ} {turn : Nat} {cursor : UInt64}

theorem kept_start (κ : Type) (items : List α) : Kept items (start κ items) := by
  constructor <;> simp [start, ofList, afterTurns, answer?]

theorem Kept.turn_lt (h : Kept items state) (hholds : state.stage caller = .holding turn cursor) :
    turn < state.answers.length :=
  (List.getElem?_eq_some_iff.mp (h.held _ _ _ hholds).2).1

theorem Kept.itemAt_eq (h : Kept items state) (turn : Nat) :
    state.rotation.itemAt (.ofNat turn) = items[turn % 2 ^ 64 % items.length]? := by
  simp [h.rotation, itemAt, afterTurns]

theorem Kept.isEmpty_eq_false (hitems : items ≠ []) (h : Kept items state) : state.rotation.isEmpty = false := by
  simpa [h.rotation, isEmpty, afterTurns] using hitems

/-! ## What the calls got -/

theorem Kept.answer?_eq {answer : Option α} (h : Kept items state) (hcalls : state.answers.length < 2 ^ 64)
    (hanswer : state.answer? turn = some answer) : answer = items[turn % items.length]? := by
  have hturn : turn < state.answers.length := by
    rw [answer?, Option.join_eq_some_iff] at hanswer
    exact (List.getElem?_eq_some_iff.mp hanswer).1
  rw [h.answered turn answer hanswer, Nat.mod_eq_of_lt (hturn.trans hcalls)]

/-- A round of calls that have returned got the items from some place on, and then those before it. -/
theorem Kept.round_eq (hitems : items ≠ []) (h : Kept items state) (hcalls : state.answers.length < 2 ^ 64) {first : Nat}
    (hreturned : ∀ turn, first ≤ turn → turn < first + items.length → (state.answer? turn).isSome) :
    (List.range' first items.length).filterMap state.answer? = (items.rotate first).map some := by
  have hanswer : ∀ turn ∈ List.range' first items.length, state.answer? turn = some items[turn % items.length]? := by
    intro turn hturn
    obtain ⟨hfrom, hto⟩ := List.mem_range'_1.mp hturn
    obtain ⟨answer, hanswer⟩ := Option.isSome_iff_exists.mp (hreturned turn hfrom hto)
    rw [hanswer, h.answer?_eq hcalls hanswer]
  have hmod (turn : Nat) : turn % items.length < items.length := Nat.mod_lt _ (List.length_pos_iff.mpr hitems)
  rw [List.filterMap_congr hanswer]
  apply List.ext_getElem <;> simp [List.getElem_rotate, Nat.add_comm first, hmod]

/-- When no call is under way, the calls were handed the items in turn. -/
theorem Kept.answers_eq (h : Kept items state) (hcalls : state.answers.length < 2 ^ 64)
    (hidle : ∀ caller, state.stage caller = .idle) :
    state.answers = (dealt items state.answers.length).map some := by
  apply List.ext_getElem
  · simp [dealt]
  · intro turn hturn _
    cases hanswer : state.answers[turn] with
    | none =>
      obtain ⟨caller, cursor, hholds⟩ := h.holder turn (by rw [List.getElem?_eq_getElem hturn, hanswer])
      simp [hidle] at hholds
    | some answer =>
      have hsome : state.answer? turn = some answer := by simp [answer?, hturn, hanswer]
      simp [dealt, h.answer?_eq hcalls hsome]

theorem Kept.timesHanded_eq (h : Kept items state) (hcalls : state.answers.length < 2 ^ 64)
    (hidle : ∀ caller, state.stage caller = .idle) (place : Nat) :
    state.timesHanded place = (List.range state.answers.length).countP fun turn => turn % items.length = place := by
  apply List.countP_congr
  intro turn hturn
  have hreturned : (state.answer? turn).isSome := by
    rw [answer?, h.answers_eq hcalls hidle]
    simp [dealt, List.mem_range.mp hturn]
  simp [hreturned, h.rotation, afterTurns]

/-! ## Steps -/

variable [DecidableEq κ]

/-- The next step of a caller: of the call that it has under way, or else of a new one. -/
def step (state : Shared κ α) (caller : κ) : Shared κ α :=
  match state.stage caller with
  | .idle =>
    if state.rotation.isEmpty then { state with turnedAway := state.turnedAway + 1 }
    else { state with stage := Function.update state.stage caller .admitted }
  | .admitted =>
    { state with
      rotation := state.rotation.advance
      stage := Function.update state.stage caller (.holding state.answers.length state.rotation.cursor)
      answers := state.answers ++ [none] }
  | .holding turn cursor =>
    { state with
      stage := Function.update state.stage caller .idle
      answers := state.answers.set turn (some (state.rotation.itemAt cursor)) }

/-- The steps of callers in the order in which they are taken. -/
def run (state : Shared κ α) (schedule : List κ) : Shared κ α := schedule.foldl step state

/-- The steps of a call that nothing comes between do what a call does. -/
theorem run_alone (hitems : state.rotation.isEmpty = false) (hidle : state.stage caller = .idle) :
    state.run [caller, caller, caller] =
      { state with rotation := state.rotation.next.2, answers := state.answers ++ [some state.rotation.next.1] } := by
  have hstage : Function.update state.stage caller .idle = state.stage := by
    rw [← hidle, Function.update_eq_self]
  simp [run, step, hidle, hitems, hstage, next, advance, itemAt]

theorem Kept.admit (h : Kept items state) (hidle : state.stage caller = .idle) :
    Kept items { state with stage := Function.update state.stage caller .admitted } := by
  have hstage {other : κ} {turn : Nat} {cursor : UInt64} :
      Function.update state.stage caller .admitted other = .holding turn cursor ↔
        state.stage other = .holding turn cursor := by
    by_cases hother : other = caller <;> simp [hother, hidle]
  exact {
    rotation := h.rotation
    turnedAway := h.turnedAway
    held := fun _ _ _ hholds => h.held _ _ _ (hstage.mp hholds)
    holder := fun turn hturn => by simpa only [hstage] using h.holder turn hturn
    alone := fun _ _ _ _ _ hholds hholds' => h.alone _ _ _ _ _ (hstage.mp hholds) (hstage.mp hholds')
    answered := h.answered }

theorem Kept.take (h : Kept items state) (hadmitted : state.stage caller = .admitted) :
    Kept items (state.step caller) := by
  have hcursor : state.rotation.cursor = .ofNat state.answers.length := by simp [h.rotation, afterTurns]
  have hanswers : (state.step caller).answers = state.answers ++ [none] := by simp [step, hadmitted]
  have hstage (other : κ) (turn : Nat) (cursor : UInt64) :
      (state.step caller).stage other = .holding turn cursor ↔
        if other = caller then turn = state.answers.length ∧ cursor = .ofNat turn
        else state.stage other = .holding turn cursor := by
    by_cases hother : other = caller
    · simp [step, hadmitted, hother, hcursor]
      grind
    · simp [step, hadmitted, hother]
  have hlt := @Kept.turn_lt α κ items state
  constructor
  · simp [step, hadmitted, h.rotation, advance, afterTurns, UInt64.ofNat_add]
  · simpa [step, hadmitted] using h.turnedAway
  · grind [h.held]
  · intro turn hturn
    by_cases hlast : turn = state.answers.length
    · exact ⟨caller, .ofNat turn, by simp [hstage, hlast]⟩
    · obtain ⟨other, cursor, hholds⟩ := h.holder turn (by grind)
      exact ⟨other, cursor, by grind⟩
  · grind [h.alone]
  · grind [h.answered, answer?]

theorem Kept.answers_hand (h : Kept items state) (hholds : state.stage caller = .holding turn cursor) :
    (state.step caller).answers = state.answers.set turn (some items[turn % 2 ^ 64 % items.length]?) := by
  obtain ⟨rfl, -⟩ := h.held _ _ _ hholds
  simp [step, hholds, h.itemAt_eq]

theorem Kept.hand (h : Kept items state) (hholds : state.stage caller = .holding turn cursor) :
    Kept items (state.step caller) := by
  have hanswers := h.answers_hand hholds
  have hlt := h.turn_lt hholds
  have hstage (other : κ) (turn : Nat) (cursor : UInt64) :
      (state.step caller).stage other = .holding turn cursor ↔
        other ≠ caller ∧ state.stage other = .holding turn cursor := by
    by_cases hother : other = caller <;> simp [step, hholds, hother]
  constructor
  · simp [step, hholds, h.rotation]
  · simpa [step, hholds] using h.turnedAway
  · intro other turn' cursor' hother
    -- no other call under way has the number of the one that returns
    have halone := h.alone caller other turn
    grind [h.held]
  · intro turn' hturn
    obtain ⟨other, cursor, hother⟩ := h.holder turn' (by grind)
    exact ⟨other, cursor, by grind⟩
  · grind [h.alone]
  · grind [h.answered, answer?]

theorem Kept.step (hitems : items ≠ []) (h : Kept items state) (caller : κ) : Kept items (state.step caller) := by
  cases hstage : state.stage caller with
  | idle => simpa [Shared.step, hstage, h.isEmpty_eq_false hitems] using h.admit hstage
  | admitted => exact h.take hstage
  | holding turn cursor => exact h.hand hstage

theorem Kept.run (hitems : items ≠ []) (h : Kept items state) (schedule : List κ) :
    Kept items (state.run schedule) := by
  induction schedule generalizing state with
  | nil => exact h
  | cons caller schedule ih => exact ih (h.step hitems caller)

/-! ## What a run preserves -/

/-- However the steps of callers are mixed, the calls get the items in turn, each call in its own, so that all items are
handed out equally often, and no call returns without one. -/
theorem fair_of_run [DecidableEq α] (hitems : items ≠ []) (schedule : List κ)
    (hcalls : ((start κ items).run schedule).answers.length < 2 ^ 64) :
    let state := (start κ items).run schedule
    let n := items.length
    let k := state.answers.length
    (∀ caller, state.stage caller = .idle → state.run [caller, caller, caller] =
        { state with rotation := state.rotation.next.2, answers := state.answers ++ [some state.rotation.next.1] }) ∧
      (∀ caller turn cursor, state.stage caller = .holding turn cursor →
        turn < k ∧ (state.step caller).answer? turn = some items[turn % n]?) ∧
      state.turnedAway = 0 ∧
      (∀ turn answer, state.answer? turn = some answer → ∃ item, answer = some item ∧ items[turn % n]? = some item) ∧
      (∀ first, (∀ turn, first ≤ turn → turn < first + n → (state.answer? turn).isSome) →
        ((List.range' first n).filterMap state.answer?).Perm (items.map some)) ∧
      ((∀ caller, state.stage caller = .idle) →
        (∀ place < n, state.timesHanded place = k / n ∨ state.timesHanded place = (k + n - 1) / n) ∧
          ∀ item, k / n * items.count item ≤ state.answers.count (some (some item)) ∧
            state.answers.count (some (some item)) ≤ (k + n - 1) / n * items.count item) := by
  intro state n k
  have hkept : Kept items state := (kept_start κ items).run hitems schedule
  refine ⟨fun caller => run_alone (hkept.isEmpty_eq_false hitems), ?_, hkept.turnedAway, ?_, ?_, fun hidle => ⟨?_, ?_⟩⟩
  · intro caller turn cursor hholds
    have hturn := hkept.turn_lt hholds
    refine ⟨hturn, ?_⟩
    rw [answer?, hkept.answers_hand hholds, Nat.mod_eq_of_lt (hturn.trans hcalls), List.getElem?_set_self hturn]
    rfl
  · intro turn answer hanswer
    have hlt : turn % n < items.length := Nat.mod_lt _ (List.length_pos_iff.mpr hitems)
    have hitem : items[turn % n]? = some items[turn % n] := List.getElem?_eq_getElem hlt
    exact ⟨items[turn % n], (hkept.answer?_eq hcalls hanswer).trans hitem, hitem⟩
  · intro first hreturned
    rw [hkept.round_eq hitems hcalls hreturned]
    exact (items.rotate_perm first).map some
  · intro place hplace
    rw [hkept.timesHanded_eq hcalls hidle]
    exact countP_place hplace k
  · intro item
    have hcount : state.answers.count (some (some item)) = (dealt items k).count (some item) := by
      rw [hkept.answers_eq hcalls hidle]
      exact List.count_map_of_injective _ some (Option.some_injective _) _
    rw [hcount]
    exact count_dealt hitems item k

/-- Two callers whose steps are mixed, with four calls between them. -/
theorem fair_of_run_two_callers :
    let state := (start Bool [7, 8, 9]).run
      [false, true, true, false, false, true, false, false, true, false, true, true]
    state.answers.length < 2 ^ 64 ∧ (∀ caller, state.stage caller = .idle) ∧
      ((List.range' 1 3).filterMap state.answer?).Perm [some 7, some 8, some 9] ∧
      (state.timesHanded 0 = 4 / 3 ∨ state.timesHanded 0 = (4 + 3 - 1) / 3) := by
  intro state
  have hcalls : state.answers.length < 2 ^ 64 := by decide
  have hidle : ∀ caller, state.stage caller = .idle := by decide
  obtain ⟨-, -, -, -, hround, hcount⟩ := fair_of_run (by decide) _ hcalls
  exact ⟨hcalls, hidle, hround 1 (by decide), (hcount hidle).1 0 (by decide)⟩

end Shared

end OverlayHost.RoundRobin
