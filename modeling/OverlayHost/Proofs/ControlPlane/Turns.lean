import OverlayHost.Proofs.ControlPlane.Steps
import OverlayHost.Proofs.RoundRobin

/-!
# Turns

Which call is given to which endpoint. Turns are counted from zero; each is given to one call, and no call has two
(`exists_turn?_iff`, `turn?_injective`), so the rotation is where the number of turns says (`Run.rotation_eq`). A call that
has its turn before another one begins comes before it (`Run.turn?_lt`).
-/

set_option autoImplicit false

namespace OverlayHost.ControlPlane

variable {ε : Type} {world : World ε} {state next after : State ε} {event : Event} {events more : List Event}

/-! ## The rotation -/

theorem Step.rotation_eq (hendpoints : world.endpoints ≠ []) (hstep : Step world state event next)
    (h : state.rotation = .afterTurns world.endpoints state.turns) :
    next.rotation = .afterTurns world.endpoints next.turns := by
  obtain ⟨endpoint, hsome⟩ := RoundRobin.exists_next_afterTurns hendpoints state.turns
  cases hstep with
  | turn hcall hnext =>
    rw [h, hsome] at hnext
    cases hnext
    rfl
  | vain hcall hnext =>
    rw [h, hsome] at hnext
    cases hnext
  | _ => exact h

/-- The rotation is where the number of turns says. -/
theorem Run.rotation_eq (hendpoints : world.endpoints ≠ []) (hrun : Run world world.start events state) :
    state.rotation = .afterTurns world.endpoints state.turns := by
  induction hrun with
  | nil => rfl
  | snoc _ hstep ih => exact hstep.rotation_eq hendpoints ih

/-- As long as there are endpoints, no turn is in vain. -/
theorem Run.next_ne_none (hendpoints : world.endpoints ≠ []) (hrun : Run world world.start events state)
    (rotation : RoundRobin ε) : state.rotation.next ≠ (none, rotation) := by
  obtain ⟨endpoint, hsome⟩ := RoundRobin.exists_next_afterTurns hendpoints state.turns
  rw [hrun.rotation_eq hendpoints, hsome]
  exact fun h => Option.some_ne_none endpoint (congrArg Prod.fst h)

/-- A call that was given to an endpoint had the turn of this endpoint. -/
def Phase.IsPlaced (endpoints : List ε) : Phase ε → Prop
  | .refused | .entered => True
  | .given turn endpoint _ => endpoints[turn % 2 ^ 64 % endpoints.length]? = some endpoint

theorem Run.isPlaced (hendpoints : world.endpoints ≠ []) (hrun : Run world world.start events state) :
    ∀ (i : Nat) phase, state.calls[i]? = some phase → phase.IsPlaced world.endpoints := by
  induction hrun with
  | nil => nofun
  | @snoc events event state next hrun hstep ih =>
    cases hstep with
    | enter =>
      refine forall_getElem?_concat ih ?_
      split <;> trivial
    | turn hcall hnext =>
      refine forall_getElem?_set ih ?_
      rw [hrun.rotation_eq hendpoints, RoundRobin.next_afterTurns hendpoints] at hnext
      exact congrArg Prod.fst hnext
    | vain => exact forall_getElem?_set ih trivial
    | stop hcall | send hcall | hear hcall | conclude hcall =>
      have hplaced := ih _ _ hcall
      exact forall_getElem?_set ih hplaced
    | close | signal | tick => exact ih

/-! ## Who has which turn -/

/-- The number of the turn that a call had. -/
def State.turn? (state : State ε) (i : Nat) : Option Nat := state.calls[i]?.bind Phase.turn?

variable {i k turn later : Nat}

/-- A step leaves the turns as they are, or gives the next one to a call that had none. -/
theorem Step.turn?_cases (hstep : Step world state event next) :
    (next.turns = state.turns ∧ ∀ i, next.turn? i = state.turn? i) ∨
      ∃ k, state.turn? k = none ∧ k < state.calls.length ∧ next.turns = state.turns + 1 ∧
        next.turn? k = some state.turns ∧ ∀ i, i ≠ k → next.turn? i = state.turn? i := by
  cases hstep with
  | enter => exact .inl ⟨rfl, bind_getElem?_concat (by split <;> rfl)⟩
  | @turn k endpoint rotation hcall hnext =>
    obtain ⟨hlt, -⟩ := List.getElem?_eq_some_iff.mp hcall
    refine .inr ⟨k, ?_, hlt, rfl, ?_, fun i hi => ?_⟩
    · rw [State.turn?, hcall]
      rfl
    · rw [State.turn?, List.getElem?_set_self hlt]
      rfl
    · rw [State.turn?, List.getElem?_set_ne hi.symm]
      rfl
  | vain hcall | stop hcall | send hcall | hear hcall | conclude hcall =>
    exact .inl ⟨rfl, bind_getElem?_set hcall rfl⟩
  | close | signal | tick => exact .inl ⟨rfl, fun _ => rfl⟩

/-- The turns that were given are those up to their number. -/
theorem Run.exists_turn?_iff (hrun : Run world world.start events state) (turn : Nat) :
    (∃ i, state.turn? i = some turn) ↔ turn < state.turns := by
  induction hrun generalizing turn with
  | nil => exact iff_of_false nofun (Nat.not_lt_zero turn)
  | @snoc events event state next hrun hstep ih =>
    rcases hstep.turn?_cases with ⟨hturns, hsame⟩ | ⟨k, hnone, -, hturns, hnew, hsame⟩
    · simp only [hsame, hturns, ih]
    · rw [hturns, Nat.lt_succ_iff_lt_or_eq, ← ih]
      constructor
      · rintro ⟨i, hi⟩
        by_cases hik : i = k
        · subst hik
          exact .inr (Option.some.inj (hi.symm.trans hnew))
        · exact .inl ⟨i, (hsame i hik).symm.trans hi⟩
      · rintro (⟨i, hi⟩ | rfl)
        · have hik : i ≠ k := by
            rintro rfl
            rw [hnone] at hi
            cases hi
          exact ⟨i, (hsame i hik).trans hi⟩
        · exact ⟨k, hnew⟩

/-- No two calls have the same turn. -/
theorem Run.turn?_injective (hrun : Run world world.start events state) (hi : state.turn? i = some turn)
    (hk : state.turn? k = some turn) : i = k := by
  induction hrun generalizing i k turn with
  | nil => cases hi
  | @snoc events event state next hrun hstep ih =>
    rcases hstep.turn?_cases with ⟨-, hsame⟩ | ⟨new, -, -, -, hnew, hsame⟩
    · rw [hsame] at hi hk
      exact ih hi hk
    · have hold {i : Nat} (hi : next.turn? i = some turn) (hne : i ≠ new) : turn < state.turns :=
        (hrun.exists_turn?_iff turn).mp ⟨i, (hsame i hne).symm.trans hi⟩
      have hlast {i : Nat} (hi : next.turn? i = some turn) (heq : i = new) : turn = state.turns :=
        Option.some.inj (hi.symm.trans (heq ▸ hnew))
      by_cases hin : i = new <;> by_cases hkn : k = new
      · rw [hin, hkn]
      · exact absurd (hold hk hkn) (hlast hi hin).not_lt
      · exact absurd (hold hi hin) (hlast hk hkn).not_lt
      · exact ih ((hsame i hin).symm.trans hi) ((hsame k hkn).symm.trans hk)

/-! ## The order of turns -/

theorem Step.turn?_eq_some (hstep : Step world state event next) (h : state.turn? i = some turn) :
    next.turn? i = some turn := by
  rcases hstep.turn?_cases with ⟨-, hsame⟩ | ⟨k, hnone, -, -, -, hsame⟩
  · rwa [hsame]
  · rw [hsame i, h]
    rintro rfl
    rw [h] at hnone
    cases hnone

theorem Run.turn?_eq_some (hrun : Run world state events next) (h : state.turn? i = some turn) :
    next.turn? i = some turn := by
  induction hrun with
  | nil => exact h
  | snoc _ hstep ih => exact hstep.turn?_eq_some ih

/-- A call that has had its turn comes before every one that begins after that. -/
theorem Run.turn?_lt (hbefore : Run world world.start events state) (hrun : Run world state more next)
    (hi : state.turn? i = some turn) (hk : state.calls.length ≤ k) (hlater : next.turn? k = some later) :
    turn < later := by
  refine lt_of_lt_of_le ((hbefore.exists_turn?_iff turn).mp ⟨i, hi⟩) (Nat.le_of_not_lt fun hlt => ?_)
  -- else another call had the later turn before
  obtain ⟨other, hother⟩ := (hbefore.exists_turn?_iff later).mpr hlt
  have hsame : other = k := (hbefore.append hrun).turn?_injective (hrun.turn?_eq_some hother) hlater
  rw [State.turn?, hsame, List.getElem?_eq_none hk] at hother
  cases hother

/-- A call that overtakes none, and that none overtakes, has the turn of its number. -/
theorem Run.eq_of_inOrder (hrun : Run world world.start events state) (hi : state.turn? i = some turn)
    (hbefore : ∀ k < i, ∃ earlier < turn, state.turn? k = some earlier)
    (hafter : ∀ k later, i < k → state.turn? k = some later → turn < later) : turn = i := by
  have hcard : (Finset.range i).card = (Finset.range turn).card := by
    refine Finset.card_bij (fun k _ => (state.turn? k).getD 0) ?_ ?_ ?_
    · intro k hk
      obtain ⟨earlier, hlt, hturn⟩ := hbefore k (Finset.mem_range.mp hk)
      rw [hturn]
      exact Finset.mem_range.mpr hlt
    · intro k hk l hl heq
      obtain ⟨_, -, hturn⟩ := hbefore k (Finset.mem_range.mp hk)
      obtain ⟨_, -, hturn'⟩ := hbefore l (Finset.mem_range.mp hl)
      rw [hturn, hturn', Option.getD_some, Option.getD_some] at heq
      exact hrun.turn?_injective hturn (heq ▸ hturn')
    · intro earlier hearlier
      have hlt := Finset.mem_range.mp hearlier
      have hcount := (hrun.exists_turn?_iff turn).mp ⟨i, hi⟩
      obtain ⟨k, hk⟩ := (hrun.exists_turn?_iff earlier).mpr (hlt.trans hcount)
      refine ⟨k, Finset.mem_range.mpr ?_, by rw [hk]; rfl⟩
      rcases Nat.lt_trichotomy k i with hki | rfl | hik
      · exact hki
      · exact absurd (Option.some.inj (hk.symm.trans hi)) hlt.ne
      · exact absurd (hafter k earlier hik hk) hlt.le.not_gt
  rw [Finset.card_range, Finset.card_range] at hcard
  exact hcard.symm

end OverlayHost.ControlPlane
