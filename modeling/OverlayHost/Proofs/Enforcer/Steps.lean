import OverlayHost.Proofs.Enforcer.Journal

/-!
# Putting a rule set into force, call by call

`enforce_ensures` follows the enforcer through all its calls, with any of them failing: the tables stay managed after
each, and at the end the parent of the rule set's chain shows the new rules alone, or the new rules on top, or exactly
what it showed before.
-/

set_option autoImplicit false

namespace OverlayHost.Enforcer

open OverlayHost.Filter (Tables ChainId Call Reply Operation Program)

variable {chains : List Chain} {set : RuleSet} {journal : Journal} {start tables : Tables} {generation : Nat}

/-- What the parents show when putting a rule set into force has ended. -/
structure Enforced (chains : List Chain) (set : RuleSet) (start : Tables) (result : Except EnforceError Unit)
    (after : Tables) : Prop where
  others : ∀ other ∈ chains, other ≠ set.chain → view after other = view start other
  own : match result with
    | .ok () => ∃ generation, view after set.chain = [(generation, some set.rules)]
    | .error (.cleanup _) => ∃ generation older, view after set.chain = (generation, some set.rules) :: older
    | .error _ => view after set.chain = view start set.chain

/-- An error before the link leaves the parents as they were. -/
theorem enforced_of_same_views {error : EnforceError} (hset : set.chain ∈ chains)
    (hviews : ∀ other ∈ chains, view tables other = view start other)
    (herror : ∀ cause, error ≠ .cleanup cause) : Enforced chains set start (.error error) tables := by
  refine ⟨fun other hother _ => hviews other hother, ?_⟩
  cases error with
  | cleanup cause => exact absurd rfl (herror cause)
  | _ => exact hviews set.chain hset

/-- Throwing away a generation that is not linked leaves the parents as they were. -/
theorem discard_ensures_managed (hlayout : Layout chains) (hset : set.chain ∈ chains)
    (hlimit : generation < Generation.limit) (h : Managed chains journal)
    (hunlinked : generation ∉ links journal.tables set.chain)
    (hviews : ∀ other ∈ chains, view journal.tables other = view start other)
    {error : EnforceError} (herror : ∀ cause, error ≠ .cleanup cause) :
    (discard (set.chain.generationId generation) error).Ensures (Journal.Step set) (Managed chains)
      (fun result after => Managed chains after ∧ Enforced chains set start result after.tables) journal := by
  intro reply cleared hcleared
  obtain ⟨hmanaged, hstill, hsame⟩ := h.step_unlinked hlayout hset hlimit hunlinked (by decide) hcleared
  refine ⟨hmanaged, ?_⟩
  intro reply deleted hdeleted
  obtain ⟨hdone, -, hagain⟩ := hmanaged.step_unlinked hlayout hset hlimit hstill (by decide) hdeleted
  refine ⟨hdone, hdone, enforced_of_same_views hset ?_ herror⟩
  intro other hother
  rw [hagain other hother, hsame other hother, hviews other hother]

/-- Removing the generations under the topmost one, the oldest first, takes them out of sight one after the other. -/
theorem removeAll_ensures_managed (hlayout : Layout chains) (hset : set.chain ∈ chains) {found : List Nat}
    {older : List (Nat × Option (List Rule))} (h : Managed chains journal)
    (hview : view journal.tables set.chain = (generation, some set.rules) :: older)
    (hfound : older.map Prod.fst = found.reverse)
    (hothers : ∀ other ∈ chains, other ≠ set.chain → view journal.tables other = view start other) :
    (removeAll set.chain found).Ensures (Journal.Step set) (Managed chains)
      (fun result after => Managed chains after ∧ Enforced chains set start result after.tables) journal := by
  induction found generalizing journal older with
  | nil =>
    rw [List.reverse_nil, List.map_eq_nil_iff] at hfound
    rw [hfound] at hview
    exact ⟨h, hothers, generation, hview⟩
  | cons old rest ih =>
    rw [List.reverse_cons, List.map_eq_append_iff] at hfound
    obtain ⟨kept, last, rfl, hkept, hlast⟩ := hfound
    obtain ⟨⟨first, content⟩, rfl, hfirst⟩ := List.map_eq_singleton_iff.mp hlast
    obtain rfl : old = first := hfirst.symm
    have hlinked : old ∈ links journal.tables set.chain := by
      rw [links_eq_map_view, hview]
      simp
    have hlimit := ((h.tidy.mem_links_iff hlayout hset).mp hlinked).1
    rw [removeAll_cons]
    -- taking the link out
    intro reply unlinked hstep
    rcases hstep.cases with ⟨cause, rfl, rfl⟩ | ⟨lines, tables, rfl, hdone, rfl⟩
    · exact ⟨h.of_error, h.of_error, hothers, generation, _, hview⟩
    obtain ⟨-, -, hafter⟩ := Tables.apply_delete_eq_ok.mp hdone
    obtain ⟨hunlinked, hshown, hold, hstill⟩ := h.of_unlink hlayout hset hview hafter lines
    refine ⟨hunlinked, ?_⟩
    -- clearing the generation, which is out of sight now
    intro reply cleared hstep
    obtain ⟨hcleared, hold, hsame⟩ := hunlinked.step_unlinked hlayout hset hlimit hold (by decide) hstep
    have hclearedView : view cleared.tables set.chain = (generation, some set.rules) :: kept := by
      rw [hsame _ hset, hshown]
    have hclearedOthers : ∀ other ∈ chains, other ≠ set.chain → view cleared.tables other = view start other := by
      intro other hother hne
      rw [hsame other hother, hstill other hother hne, hothers other hother hne]
    refine ⟨hcleared, ?_⟩
    cases reply with
    | error cause => exact ⟨hcleared, hclearedOthers, generation, _, hclearedView⟩
    | ok _ =>
      -- deleting it
      intro reply deleted hstep
      obtain ⟨hdeleted, -, hsame⟩ := hcleared.step_unlinked hlayout hset hlimit hold (by decide) hstep
      have hdeletedView : view deleted.tables set.chain = (generation, some set.rules) :: kept := by
        rw [hsame _ hset, hclearedView]
      have hdeletedOthers :
          ∀ other ∈ chains, other ≠ set.chain → view deleted.tables other = view start other := by
        intro other hother hne
        rw [hsame other hother, hclearedOthers other hother hne]
      refine ⟨hdeleted, ?_⟩
      cases reply with
      | error cause => exact ⟨hdeleted, hdeletedOthers, generation, _, hdeletedView⟩
      | ok _ => exact ih hdeleted hdeletedView hkept hdeletedOthers

/-- Linking a generation that has been filled puts it on top, and removing those under it leaves it alone. -/
theorem linkFilled_ensures_managed (hlayout : Layout chains) (hset : set.chain ∈ chains)
    (hlimit : generation < Generation.limit) (h : Managed chains journal)
    (hviews : ∀ other ∈ chains, view journal.tables other = view start other)
    (hnewer : ∀ old ∈ links journal.tables set.chain, old < generation)
    (hbuilt : builtFor journal.history (set.chain.generationId generation) = some set)
    (hfull : journal.tables.rules? (set.chain.generationId generation) = some set.rules) {found : List Nat}
    (hfound : links journal.tables set.chain = found.reverse) :
    (linkFilled set found generation).Ensures (Journal.Step set) (Managed chains)
      (fun result after => Managed chains after ∧ Enforced chains set start result after.tables) journal := by
  have hunlinked : generation ∉ links journal.tables set.chain :=
    fun hlinked => Nat.lt_irrefl generation (hnewer generation hlinked)
  intro reply linked hstep
  rcases hstep.cases with ⟨cause, rfl, rfl⟩ | ⟨lines, tables, rfl, hdone, rfl⟩
  · refine ⟨h.of_error, ?_⟩
    exact discard_ensures_managed hlayout hset hlimit h.of_error hunlinked hviews (by simp)
  obtain ⟨-, -, -, hinserted⟩ := Tables.apply_bulkInsert_eq_ok.mp hdone
  obtain ⟨hlinked, hown, hothers⟩ := h.of_link hlayout hset hlimit hnewer hbuilt hfull hinserted lines
  refine ⟨hlinked, removeAll_ensures_managed hlayout hset hlinked hown ?_ ?_⟩
  · rw [← links_eq_map_view, hfound]
  · intro other hother hne
    rw [hothers other hother hne, hviews other hother]

/-- Filling a generation that has just been added cannot be seen from any parent, and makes it ready to be linked. -/
theorem fillAdded_ensures_managed (hlayout : Layout chains) (hset : set.chain ∈ chains)
    (hlimit : generation < Generation.limit) (h : Managed chains journal)
    (hviews : ∀ other ∈ chains, view journal.tables other = view start other)
    (hnewer : ∀ old ∈ links journal.tables set.chain, old < generation)
    (hbuilt : builtFor journal.history (set.chain.generationId generation) = some set)
    (hempty : journal.tables.rules? (set.chain.generationId generation) = some []) {found : List Nat}
    (hfound : links journal.tables set.chain = found.reverse) :
    (fillAdded set found generation).Ensures (Journal.Step set) (Managed chains)
      (fun result after => Managed chains after ∧ Enforced chains set start result after.tables) journal := by
  have hunlinked : generation ∉ links journal.tables set.chain :=
    fun hlinked => Nat.lt_irrefl generation (hnewer generation hlinked)
  intro reply filled hstep
  obtain ⟨hfilled, hstill, hsame⟩ :=
    h.step_unlinked hlayout hset hlimit hunlinked (by simp [Operation.kind]) hstep
  have hfilledViews : ∀ other ∈ chains, view filled.tables other = view start other := by
    intro other hother
    rw [hsame other hother, hviews other hother]
  have hfilledLinks : links filled.tables set.chain = links journal.tables set.chain := by
    rw [links_eq_map_view, hsame _ hset, ← links_eq_map_view]
  refine ⟨hfilled, ?_⟩
  rcases hstep.cases with ⟨cause, rfl, -⟩ | ⟨lines, tables, rfl, hdone, hfilledEq⟩
  · exact discard_ensures_managed hlayout hset hlimit hfilled hstill hfilledViews (by simp)
  obtain ⟨-, -, -, happended⟩ := Tables.apply_bulkAppend_eq_ok.mp hdone
  refine linkFilled_ensures_managed hlayout hset hlimit hfilled hfilledViews ?_ ?_ ?_ ?_
  · rw [hfilledLinks]
    exact hnewer
  · rw [hfilledEq]
    dsimp only
    rw [builtFor_cons_of_not (by simp [Entry.creates]), hbuilt]
  · rw [hfilledEq, happended, Tables.rules?_modify, if_pos rfl, hempty]
    rfl
  · rw [hfilledLinks, hfound]

/-- Building, filling and linking a generation that is newer than those found, and removing those, keeps the tables
managed after every call, as long as generations have ten digits. -/
theorem replace_ensures_managed (hlayout : Layout chains) (hset : set.chain ∈ chains) (h : Managed chains journal)
    (now : Nat) :
    (replace set (foundIn journal.tables set.chain) now).Ensures (Journal.Step set)
      (fun after => TenDigits after.history → Managed chains after)
      (fun result after => TenDigits after.history →
        Managed chains after ∧ Enforced chains set journal.tables result after.tables) journal := by
  rw [replace_eq]
  have hfound := h.tidy.foundIn_eq hlayout hset
  have hnewer : ∀ old ∈ links journal.tables set.chain,
      old < Generation.next (foundIn journal.tables set.chain) now := by
    intro old hold
    refine Generation.lt_next (Generation.pairwise_inListing _ _) now old ?_
    rw [← foundIn, hfound, List.mem_reverse]
    exact hold
  generalize Generation.next (foundIn journal.tables set.chain) now = generation at hnewer ⊢
  intro reply created hstep
  rcases hstep.cases with ⟨cause, rfl, rfl⟩ | ⟨lines, tables, rfl, hdone, hcreatedEq⟩
  · refine ⟨fun _ => h.of_error, fun _ => ⟨h.of_error, ?_⟩⟩
    exact enforced_of_same_views hset (fun _ _ => rfl) (by simp)
  by_cases hdigits : TenDigits created.history
  case neg =>
    refine ⟨fun hagain => absurd hagain hdigits, ?_⟩
    exact ensures_of_not_tenDigits _ hdigits
  case pos =>
  have hlimit : generation < Generation.limit := by
    rw [hcreatedEq] at hdigits
    exact hdigits _ (List.mem_cons_self ..) generation rfl
  obtain ⟨hnew, -, hadded⟩ := Tables.apply_newChain_eq_ok.mp hdone
  have hunlinked : generation ∉ links journal.tables set.chain :=
    fun hlinked => Nat.lt_irrefl generation (hnewer generation hlinked)
  obtain ⟨hcreated, -, hviews⟩ := h.step_unlinked hlayout hset hlimit hunlinked (by decide) hstep
  have hlinks : links created.tables set.chain = links journal.tables set.chain := by
    rw [links_eq_map_view, hviews _ hset, ← links_eq_map_view]
  have hfill : (fillAdded set (foundIn journal.tables set.chain) generation).Ensures (Journal.Step set)
      (Managed chains) (fun result after => Managed chains after ∧
        Enforced chains set journal.tables result after.tables) created := by
    refine fillAdded_ensures_managed hlayout hset hlimit hcreated hviews ?_ ?_ ?_ ?_
    · rw [hlinks]
      exact hnewer
    · rw [hcreatedEq]
      exact builtFor_cons_of_creates (by simp [Entry.creates, Except.isOk, Except.toBool])
    · rw [hcreatedEq, hadded, Tables.rules?_addChain hnew, if_pos rfl]
    · rw [hlinks, hfound, List.reverse_reverse]
  refine ⟨fun _ => hcreated, hfill.mono ?_ ?_⟩
  · exact fun _ hafter _ => hafter
  · exact fun _ _ hafter _ => hafter

/-- Listing a parent changes nothing. -/
theorem Managed.of_list (h : Managed chains journal) (set : RuleSet) (id : ChainId) (lines : List String) :
    Managed chains ⟨journal.tables, ⟨set, ⟨id, .list⟩, .ok lines⟩ :: journal.history⟩ := by
  refine h.of_same_views h.tidy (fun _ _ => rfl) ?_ ?_
  · intro chain _ generation _
    simp [Entry.creates]
  · intro chain _
    exact linksFor_eq_false_of_kind (by simp [Operation.kind])

/-- Putting a rule set into force keeps the tables managed after every call, as long as generations have ten digits. -/
theorem enforce_ensures (hlayout : Layout chains) (hset : set.chain ∈ chains)
    (h : TenDigits journal.history → Managed chains journal) :
    (enforce set).Ensures (Journal.Step set) (fun after => TenDigits after.history → Managed chains after)
      (fun result after => TenDigits after.history → TenDigits journal.history ∧
        Managed chains after ∧ Enforced chains set journal.tables result after.tables) journal := by
  by_cases hdigits : TenDigits journal.history
  case neg => exact ensures_of_not_tenDigits _ hdigits
  case pos =>
  have hmanaged := h hdigits
  rw [enforce_eq]
  intro reply listed hstep
  rcases hstep.cases with ⟨cause, rfl, rfl⟩ | ⟨lines, tables, rfl, hdone, rfl⟩
  · refine ⟨fun _ => hmanaged.of_error, fun _ => ⟨hdigits, hmanaged.of_error, ?_⟩⟩
    exact enforced_of_same_views hset (fun _ _ => rfl) (by simp)
  obtain ⟨rules, hrules, rfl, rfl⟩ := Tables.apply_list_eq_ok.mp hdone
  have hlisted := hmanaged.of_list set set.chain.parentId (Tables.listing set.chain.parentId.name rules)
  refine ⟨fun _ => hlisted, ?_⟩
  intro now
  have hfound : foundIn journal.tables set.chain =
      Generation.inListing set.chain.stem (Tables.listing set.chain.parentId.name rules) := by
    rw [foundIn, rulesOf_of_rules? hrules]
    rfl
  have hreplace := replace_ensures_managed hlayout hset hlisted now
  dsimp only at hreplace
  rw [hfound] at hreplace
  refine hreplace.mono (fun _ hafter => hafter) ?_
  intro result after hafter hlast
  exact ⟨hdigits, hafter hlast⟩

end OverlayHost.Enforcer
