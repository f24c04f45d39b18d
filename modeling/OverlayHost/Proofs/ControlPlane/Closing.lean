import OverlayHost.Proofs.ControlPlane.Outcomes

/-!
# Closing a client

Just the first closing succeeds (`Run.closings_eq`), and just the calls that begin after it are refused (`Run.refused_iff`).
From the others it takes nothing away: they come as far as they do without any closing (`Run.unclosed`).
-/

set_option autoImplicit false

namespace OverlayHost.ControlPlane

variable {ε : Type} {world : World ε} {state next : State ε} {event : Event} {events : List Event} {i : Nat}
variable {phase : Phase ε}

/-! ## Closings -/

theorem Run.isOpen_iff (hrun : Run world world.start events state) : state.isOpen = true ↔ Event.close ∉ events := by
  induction hrun with
  | nil => simp [World.start]
  | @snoc events event state next hrun hstep ih =>
    have hother (hsame : next.isOpen = state.isOpen) (hne : event ≠ .close) :
        next.isOpen = true ↔ Event.close ∉ events ++ [event] := by
      rw [hsame, ih]
      simp [hne.symm]
    cases hstep with
    | close =>
      refine iff_of_false ?_ (by simp)
      rw [World.close_client]
      exact Bool.false_ne_true
    | _ => exact hother rfl nofun

/-- Just the first closing succeeds. -/
theorem Run.closings_eq (hrun : Run world world.start events state) :
    state.closings =
      (List.range (events.count .close)).map fun k => if k = 0 then .ok () else .error .channelClosing := by
  induction hrun with
  | nil => rfl
  | @snoc events event state next hrun hstep ih =>
    have hother (hsame : next.closings = state.closings) (hne : event ≠ .close) :
        next.closings =
          (List.range ((events ++ [event]).count .close)).map fun k => if k = 0 then .ok () else .error .channelClosing := by
      rw [hsame, ih, List.count_append, List.count_singleton]
      simp [hne]
    cases hstep with
    | close =>
      have hcount : (events ++ [Event.close]).count .close = events.count .close + 1 := by simp
      have hnew : (world.client state).close.1 =
          if events.count Event.close = 0 then .ok () else .error .channelClosing := by
        rw [World.close_client]
        simp only [List.count_eq_zero, ← hrun.isOpen_iff]
      rw [hcount, List.range_succ, List.map_append, ← ih, List.map_singleton, ← hnew]
    | _ => exact hother rfl nofun

/-! ## Beginnings -/

theorem Run.length_calls (hrun : Run world world.start events state) : state.calls.length = events.count .enter := by
  induction hrun with
  | nil => rfl
  | @snoc events event state next hrun hstep ih =>
    rw [List.count_append, ← ih]
    cases hstep <;> simp

/-- A call goes on as one that was refused, or as one that was not. -/
theorem Step.exists_phase (hstep : Step world state event next)
    (hnext : ∀ rotation, state.rotation.next ≠ (none, rotation)) (hcall : state.calls[i]? = some phase) :
    ∃ further, next.calls[i]? = some further ∧ (further = .refused ↔ phase = .refused) := by
  have hset {k : Nat} {old new : Phase ε} (hold : state.calls[k]? = some old) (hnew : new = .refused ↔ old = .refused) :
      ∃ further, (state.calls.set k new)[i]? = some further ∧ (further = .refused ↔ phase = .refused) := by
    obtain ⟨hlt, -⟩ := List.getElem?_eq_some_iff.mp hold
    by_cases hik : i = k
    · subst hik
      obtain rfl := Option.some.inj (hcall.symm.trans hold)
      exact ⟨new, List.getElem?_set_self hlt, hnew⟩
    · exact ⟨phase, by rwa [List.getElem?_set_ne (Ne.symm hik)], Iff.rfl⟩
  cases hstep with
  | enter =>
    obtain ⟨hlt, -⟩ := List.getElem?_eq_some_iff.mp hcall
    exact ⟨phase, by rwa [List.getElem?_append_left hlt], Iff.rfl⟩
  | turn hold | stop hold | send hold | hear hold | conclude hold => exact hset hold (iff_of_false nofun nofun)
  | vain _ hvain => exact absurd hvain (hnext _)
  | close | signal | tick => exact ⟨phase, hcall, Iff.rfl⟩

/-- A call is refused just if it began after a closing. -/
theorem Run.refused_iff (hendpoints : world.endpoints ≠ []) (hrun : Run world world.start events state)
    {before after : List Event} (hevents : events = before ++ .enter :: after) :
    ∃ phase, state.calls[before.count .enter]? = some phase ∧ (phase = .refused ↔ Event.close ∈ before) := by
  induction hrun generalizing after with
  | nil => simp at hevents
  | @snoc events event state next hrun hstep ih =>
    rcases after.eq_nil_or_concat with rfl | ⟨after, last, rfl⟩
    · obtain ⟨rfl, hlast⟩ := List.append_inj' hevents rfl
      obtain rfl : event = .enter := List.singleton_inj.mp hlast
      cases hstep with
      | enter =>
        rw [← hrun.length_calls]
        refine ⟨_, List.getElem?_concat_length, ?_⟩
        have hopen := hrun.isOpen_iff
        rw [World.isSome_channels]
        split
        next h => exact iff_of_false nofun (hopen.mp h)
        next h => exact iff_of_true rfl (not_not.mp (mt hopen.mpr h))
    · rw [List.concat_eq_append, ← List.cons_append, ← List.append_assoc] at hevents
      obtain ⟨hinit, -⟩ := List.append_inj' hevents rfl
      obtain ⟨phase, hcall, hrefused⟩ := ih hinit
      obtain ⟨further, hfurther, hsame⟩ := hstep.exists_phase (hrun.next_ne_none hendpoints) hcall
      exact ⟨further, hfurther, hsame.trans hrefused⟩

/-! ## A client that is never closed -/

/-- A phase of a call that was not refused. -/
def Phase.unclosed : Phase ε → Phase ε
  | .refused => .entered
  | phase => phase

/-- The state of a client that was never closed, with the calls that were refused not going on. -/
def State.unclosed (state : State ε) : State ε :=
  { state with isOpen := true, closings := [], calls := state.calls.map Phase.unclosed }

theorem State.getElem?_unclosed (h : state.calls[i]? = some phase) :
    state.unclosed.calls[i]? = some phase.unclosed := by
  show (state.calls.map Phase.unclosed)[i]? = _
  rw [List.getElem?_map, h]
  rfl

theorem State.set_unclosed (state : State ε) (i turn : Nat) (endpoint : ε) (progress : Progress) :
    state.unclosed.calls.set i (.given turn endpoint progress) =
      (state.calls.set i (.given turn endpoint progress)).map Phase.unclosed := by
  rw [List.map_set]
  rfl

theorem State.concat_unclosed (state : State ε) {phase : Phase ε} (hphase : phase.unclosed = .entered) :
    state.unclosed.calls ++ [.entered] = (state.calls ++ [phase]).map Phase.unclosed := by
  rw [List.map_append, List.map_singleton, hphase]
  rfl

theorem State.getElem?_of_unclosed {turn : Nat} {endpoint : ε} {progress : Progress}
    (h : state.unclosed.calls[i]? = some (.given turn endpoint progress)) :
    state.calls[i]? = some (.given turn endpoint progress) := by
  have hmap : (state.calls.map Phase.unclosed)[i]? = some (.given turn endpoint progress) := h
  rw [List.getElem?_map] at hmap
  obtain ⟨_ | _ | _, hcall, hphase⟩ := Option.map_eq_some_iff.mp hmap
  · cases hphase
  · cases hphase
  · cases hphase
    exact hcall

/-- A step of a client is one of the client that is not closed, or a closing. -/
theorem Step.unclosed (hstep : Step world state event next) (hnext : ∀ rotation, state.rotation.next ≠ (none, rotation))
    (hne : event ≠ .close) : Step world state.unclosed event next.unclosed := by
  cases hstep with
  | enter =>
    have hphase : (if (world.client state).channels.isSome then .entered else .refused : Phase ε).unclosed = .entered := by
      split <;> rfl
    have h : Step world state.unclosed .enter _ := .enter
    rw [World.isSome_channels, if_pos (show state.unclosed.isOpen = true from rfl), state.concat_unclosed hphase] at h
    exact h
  | turn hcall hturn =>
    have h : Step world _ _ _ := .turn (State.getElem?_unclosed hcall) hturn
    rw [State.set_unclosed] at h
    exact h
  | stop hcall hset =>
    have h : Step world _ _ _ := .stop (State.getElem?_unclosed hcall) hset
    rw [State.set, State.set_unclosed] at h
    exact h
  | send hcall hunset =>
    have h : Step world _ _ _ := .send (State.getElem?_unclosed hcall) hunset
    rw [State.set_unclosed] at h
    exact h
  | hear hcall hset =>
    have h : Step world _ _ _ := .hear (State.getElem?_unclosed hcall) hset
    rw [State.set, State.set_unclosed] at h
    exact h
  | conclude hcall hdue =>
    have h : Step world _ _ _ := .conclude (State.getElem?_unclosed hcall) hdue
    rw [State.set, State.set_unclosed] at h
    exact h
  | vain _ hvain => exact absurd hvain (hnext _)
  | close => exact absurd rfl hne
  | signal hleft => exact .signal hleft
  | tick hlater hdone =>
    refine .tick hlater ?_
    rintro i endpoint since ⟨turn, hcall⟩
    exact hdone i endpoint since ⟨turn, State.getElem?_of_unclosed hcall⟩

/-- Without the closings, the calls that were not refused come as far as they did. -/
theorem Run.unclosed (hendpoints : world.endpoints ≠ []) (hrun : Run world world.start events state) :
    Run world world.start (events.filter (· ≠ .close)) state.unclosed := by
  induction hrun with
  | nil => exact .nil
  | @snoc events event state next hrun hstep ih =>
    rw [List.filter_append]
    by_cases hclose : event = .close
    · subst hclose
      cases hstep with
      | close =>
        have hdropped : [Event.close].filter (· ≠ Event.close) = [] := by simp
        rw [hdropped, List.append_nil]
        exact ih
    · have hkept : [event].filter (· ≠ Event.close) = [event] := by simp [hclose]
      rw [hkept]
      exact ih.snoc (hstep.unclosed (hrun.next_ne_none hendpoints) hclose)

end OverlayHost.ControlPlane
