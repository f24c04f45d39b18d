import OverlayHost.Cycle
import Mathlib.Data.List.Basic

/-!
# What a poll cycle remembers

The rule sets that a cycle remembers, and two rules for the loop over its planners: `visit_invariant` for what every
planner's turn preserves, and `last?_of_visit_ok` for what is remembered once the loop has come to its end: for each
planner's chain, just what that planner asked for.
-/

set_option autoImplicit false

namespace OverlayHost.Cycle

variable {π σ : Type} {world : World π σ} {planners : List π} {progress : Progress σ}

/-! ## Remembered rule sets -/

namespace Applied

variable {applied : Applied} {set : RuleSet} {chain : Chain}

theorem last?_record_self (applied : Applied) (set : RuleSet) :
    (applied.record set).last? set.chain = some set := by
  simp [last?, record]

theorem last?_record_of_ne (applied : Applied) (h : chain ≠ set.chain) :
    (applied.record set).last? chain = applied.last? chain := by
  have hne : ¬ set.chain = chain := fun heq => h heq.symm
  simp only [last?, record, List.find?_cons, hne, decide_false, List.find?_filter]
  congr 1
  funext other
  by_cases heq : other.chain = chain
  · simp [heq, h]
  · simp [heq]

theorem chain_of_last? (h : applied.last? chain = some set) : set.chain = chain := by
  simpa using List.find?_some h

end Applied

/-! ## The loop over the planners -/

/-- The turn of a planner: it fails, or asks for what is remembered already, or for something that cannot be put into
force, or for something that is put into force and remembered. -/
theorem visit_cons_cases (world : World π σ) (planner : π) (rest : List π) (progress : Progress σ) :
    (∃ cause asked, world.plan planner progress.state = (.error cause, asked) ∧
      visit world (planner :: rest) progress = (.error (.plan cause), { progress with state := asked })) ∨
    ∃ wanted asked, world.plan planner progress.state = (.ok wanted, asked) ∧
      ((progress.applied.last? wanted.chain = some wanted ∧
          visit world (planner :: rest) progress = visit world rest { progress with state := asked }) ∨
        (progress.applied.last? wanted.chain ≠ some wanted ∧
          ((∃ cause after, world.enforce wanted asked = (.error cause, after) ∧
              visit world (planner :: rest) progress = (.error (.enforce cause),
                { progress with state := after, enforced := progress.enforced ++ [wanted] })) ∨
            ∃ after, world.enforce wanted asked = (.ok (), after) ∧
              visit world (planner :: rest) progress = visit world rest
                { applied := progress.applied.record wanted
                  state := after
                  spent := progress.spent + (world.now after - world.now asked)
                  enforced := progress.enforced ++ [wanted] }))) := by
  rw [visit]
  cases hplan : world.plan planner progress.state with
  | mk answer asked =>
    cases answer with
    | error cause => exact .inl ⟨cause, asked, rfl, rfl⟩
    | ok wanted =>
      refine .inr ⟨wanted, asked, rfl, ?_⟩
      by_cases hsame : progress.applied.last? wanted.chain = some wanted
      · exact .inl ⟨hsame, if_pos hsame⟩
      · simp only [if_neg hsame]
        refine .inr ⟨hsame, ?_⟩
        cases henforce : world.enforce wanted asked with
        | mk result after =>
          cases result with
          | error cause => exact .inl ⟨cause, after, rfl, rfl⟩
          | ok _ => exact .inr ⟨after, rfl, rfl⟩

/-- What asking a planner and what enforcing its answer preserve holds at the end of the loop, however it ends. -/
theorem visit_invariant (inv : Applied → σ → Prop)
    (hplan : ∀ planner ∈ planners, ∀ applied state answer asked, inv applied state →
      world.plan planner state = (answer, asked) → inv applied asked)
    (hok : ∀ planner ∈ planners, ∀ applied state wanted asked after, inv applied asked →
      world.plan planner state = (.ok wanted, asked) → applied.last? wanted.chain ≠ some wanted →
      world.enforce wanted asked = (.ok (), after) → inv (applied.record wanted) after)
    (herror : ∀ planner ∈ planners, ∀ applied state wanted asked cause after, inv applied asked →
      world.plan planner state = (.ok wanted, asked) → applied.last? wanted.chain ≠ some wanted →
      world.enforce wanted asked = (.error cause, after) → inv applied after)
    (h : inv progress.applied progress.state) :
    inv (visit world planners progress).2.applied (visit world planners progress).2.state := by
  induction planners generalizing progress with
  | nil => exact h
  | cons planner rest ih =>
    have hself : planner ∈ planner :: rest := List.mem_cons_self ..
    have hrest : ∀ other ∈ rest, other ∈ planner :: rest := fun _ hother => List.mem_cons_of_mem planner hother
    have ih {progress : Progress σ} (h : inv progress.applied progress.state) :
        inv (visit world rest progress).2.applied (visit world rest progress).2.state :=
      ih (fun other hother => hplan other (hrest other hother)) (fun other hother => hok other (hrest other hother))
        (fun other hother => herror other (hrest other hother)) h
    rcases visit_cons_cases world planner rest progress with
      ⟨cause, asked, hanswer, hvisit⟩ | ⟨wanted, asked, hanswer, ⟨-, hvisit⟩ | ⟨hchanged, hturn⟩⟩
    · rw [hvisit]
      exact hplan planner hself _ _ _ _ h hanswer
    · rw [hvisit]
      exact ih (hplan planner hself _ _ _ _ h hanswer)
    · have hasked := hplan planner hself _ _ _ _ h hanswer
      rcases hturn with ⟨cause, after, henforce, hvisit⟩ | ⟨after, henforce, hvisit⟩
      · rw [hvisit]
        exact herror planner hself _ _ _ _ _ _ hasked hanswer hchanged henforce
      · rw [hvisit]
        exact ih (hok planner hself _ _ _ _ _ hasked hanswer hchanged henforce)

/-- What is remembered of a chain changes only in the turns of the chain's planners. -/
theorem last?_visit_of_ne {chain : Chain}
    (hchain : ∀ planner ∈ planners, ∀ state wanted asked,
      world.plan planner state = (.ok wanted, asked) → wanted.chain ≠ chain) :
    (visit world planners progress).2.applied.last? chain = progress.applied.last? chain := by
  refine visit_invariant (fun applied _ => applied.last? chain = progress.applied.last? chain) ?_ ?_ ?_ rfl
  · intro planner _ applied state answer asked h _
    exact h
  · intro planner hplanner applied state wanted asked after h hanswer _ _
    rw [Applied.last?_record_of_ne applied (hchain planner hplanner state wanted asked hanswer).symm, h]
  · intro planner _ applied state wanted asked cause after h _ _ _
    exact h

/-- When the loop has come to its end, each planner's chain is remembered with what that planner answered, if no two
planners plan for one chain. -/
theorem last?_of_visit_ok (chainOf : π → Chain)
    (hchain : ∀ planner ∈ planners, ∀ state wanted asked,
      world.plan planner state = (.ok wanted, asked) → wanted.chain = chainOf planner)
    (hdistinct : (planners.map chainOf).Nodup) (hok : (visit world planners progress).1 = .ok ()) :
    ∀ planner ∈ planners, ∃ state wanted asked, world.plan planner state = (.ok wanted, asked) ∧
      (visit world planners progress).2.applied.last? (chainOf planner) = some wanted := by
  induction planners generalizing progress with
  | nil => simp
  | cons first rest ih =>
    have hrest : ∀ planner ∈ rest, ∀ state wanted asked,
        world.plan planner state = (.ok wanted, asked) → wanted.chain = chainOf planner :=
      fun planner hplanner => hchain planner (List.mem_cons_of_mem first hplanner)
    obtain ⟨hfirst, hdistinct⟩ := List.nodup_cons.mp hdistinct
    -- what the first planner answered is remembered from its turn on
    have hkept {state : σ} {wanted : RuleSet} {asked : σ} {after : Progress σ}
        (hanswer : world.plan first state = (.ok wanted, asked))
        (hlast : after.applied.last? wanted.chain = some wanted) (hok : (visit world rest after).1 = .ok ()) :
        ∀ planner ∈ first :: rest, ∃ state wanted asked, world.plan planner state = (.ok wanted, asked) ∧
          (visit world rest after).2.applied.last? (chainOf planner) = some wanted := by
      intro planner hplanner
      rcases List.mem_cons.mp hplanner with rfl | hplanner
      · refine ⟨state, wanted, asked, hanswer, ?_⟩
        have hown := hchain planner (List.mem_cons_self ..) state wanted asked hanswer
        rw [← hown, last?_visit_of_ne, hlast]
        intro other hother second answer answered hsecond heq
        apply hfirst
        rw [← hown, ← heq, hrest other hother second answer answered hsecond]
        exact List.mem_map_of_mem hother
      · exact ih hrest hdistinct hok planner hplanner
    rcases visit_cons_cases world first rest progress with
      ⟨cause, asked, hanswer, hvisit⟩ | ⟨wanted, asked, hanswer, ⟨hsame, hvisit⟩ | ⟨-, hturn⟩⟩
    · rw [hvisit] at hok
      cases hok
    · rw [hvisit] at hok ⊢
      exact hkept hanswer hsame hok
    · rcases hturn with ⟨cause, after, henforce, hvisit⟩ | ⟨after, henforce, hvisit⟩
      · rw [hvisit] at hok
        cases hok
      · rw [hvisit] at hok ⊢
        exact hkept hanswer (Applied.last?_record_self _ _) hok

end OverlayHost.Cycle
