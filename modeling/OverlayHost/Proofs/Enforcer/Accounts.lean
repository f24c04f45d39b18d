import OverlayHost.Proofs.Enforcer.Journal
import OverlayHost.Proofs.Filter.Dangling

/-!
# What becomes of every generation

Rule sets for one chain are put into force on tables that hold no generation of it, with any calls failing. Whatever
exists of the chain's generations is accounted for at every call: it is linked, or it is the one at work, or a call
that was to remove it was made to fail. `enforce_accounted` follows the enforcer through all its calls. When it ends
well just the fresh generation is linked, so any other that is left was left by such a failure.

Rules of the parent that were there before may mention generations, and so may the parent's own name. Then the enforcer
finds what it cannot take out, and does not end well.
-/

set_option autoImplicit false

namespace OverlayHost

open OverlayHost.Filter (Tables ChainId Call Reply Operation)

/-- Whether an identifier is that of a generation of a chain: the table is the chain's, and the name its stem and ten
digits. -/
def Chain.Owns (chain : Chain) (id : ChainId) : Prop :=
  id.table = chain.table ∧ (Generation.ofName? chain.stem id.name).isSome = true

namespace Enforcer

open OverlayHost.Filter (Program)

variable {chain : Chain} {set : RuleSet} {start tables : Tables} {live loose : List Nat} {generation : Nat}
  {before after : Journal} {entry : Entry} {history : List Entry} {id : ChainId} {rules : List Rule} {reply : Reply}

theorem owns_generationId (chain : Chain) (h : generation < Generation.limit) :
    chain.Owns (chain.generationId generation) := by
  refine ⟨rfl, ?_⟩
  rw [Chain.generationId, Generation.ofName?_name _ _ h]
  rfl

theorem generationId_inj {other : Nat} :
    chain.generationId generation = chain.generationId other ↔ generation = other := by
  rw [Chain.generationId, Chain.generationId, ChainId.mk.injEq, Generation.name_inj]
  exact and_iff_right rfl

theorem link_injective (chain : Chain) : Function.Injective chain.link := by
  intro generation other heq
  have hname : some (Generation.name chain.stem generation) = some (Generation.name chain.stem other) := by
    rw [← Generation.target?_jumpTo, ← Generation.target?_jumpTo]
    exact congrArg Rule.target? heq
  exact Generation.name_inj.mp (Option.some.inj hname)

/-! ## Left over -/

/-- Whether the call was to empty or to delete a chain and was made to fail. -/
def Entry.Spares (entry : Entry) (id : ChainId) : Prop :=
  (entry.call = ⟨id, .clearChain⟩ ∨ entry.call = ⟨id, .deleteChain⟩) ∧
    entry.reply = .error (Tables.Refusal.injected entry.call.operation.kind).toError

/-- Whether a call that was to remove a chain was made to fail since the chain was added last. -/
def LeftOver (history : List Entry) (id : ChainId) : Prop :=
  ∃ entry ∈ history.takeWhile (fun entry => !entry.creates id), entry.Spares id

theorem LeftOver.cons (h : LeftOver history id) (hcreates : entry.creates id = false) :
    LeftOver (entry :: history) id := by
  obtain ⟨spared, hmem, hspares⟩ := h
  refine ⟨spared, ?_, hspares⟩
  rw [List.takeWhile_cons_of_pos (by rw [hcreates]; rfl)]
  exact List.mem_cons_of_mem entry hmem

theorem leftOver_of_spares (h : entry.Spares id) (history : List Entry) : LeftOver (entry :: history) id := by
  have hcreates : entry.creates id = false := by
    apply creates_eq_false_of_operation
    rcases h.1 with hcall | hcall
    all_goals
      rw [hcall]
      exact Operation.noConfusion
  refine ⟨entry, ?_, h⟩
  rw [List.takeWhile_cons_of_pos (by rw [hcreates]; rfl)]
  exact List.mem_cons_self ..

/-! ## Accounts -/

/-- Tables of a filter that hold no generation of a chain, whose stem has no blank in it. -/
structure Unbuilt (chain : Chain) (tables : Tables) : Prop where
  blankFree : Generation.BlankFree chain.stem
  noDangling : tables.NoDangling
  absent : ∀ id, chain.Owns id → tables.rules? id = none

/-- A generation that the enforcer may link: it is there, and the parent's name does not mention it. -/
structure Ready (chain : Chain) (tables : Tables) (generation : Nat) : Prop where
  limit : generation < Generation.limit
  built : ∃ rules, tables.rules? (chain.generationId generation) = some rules
  unmentioned : Generation.inWords? chain.stem.toList chain.parent.toList ≠ some generation

/-- How tables have come of others in which nothing was built for a chain: the parent has some live generations on top,
each generation is live, or loose, which means that the enforcer is about to link or to remove it, or left over, and
nothing else has changed. -/
structure Accounted (chain : Chain) (start : Tables) (live loose : List Nat) (journal : Journal) : Prop where
  nodup : live.Nodup
  ready : ∀ generation ∈ live, Ready chain journal.tables generation
  parent : journal.tables.rules? chain.parentId =
    (start.rules? chain.parentId).map fun rules => live.map chain.link ++ rules
  others : ∀ id, ¬ chain.Owns id → id ≠ chain.parentId → journal.tables.rules? id = start.rules? id
  inner : ∀ id, chain.Owns id → ∀ rule ∈ rulesOf journal.tables id, Generation.jumped? chain.stem rule = none
  each : ∀ id, chain.Owns id → ∀ rules, journal.tables.rules? id = some rules →
    (∃ generation ∈ live ++ loose, id = chain.generationId generation) ∨ LeftOver journal.history id

theorem Unbuilt.accounted (h : Unbuilt chain start) : Accounted chain start [] [] ⟨start, []⟩ where
  nodup := List.nodup_nil
  ready := by simp
  parent := by simp
  others := fun _ _ _ => rfl
  inner := by
    intro id howns rule hrule
    rw [rulesOf, h.absent id howns] at hrule
    cases hrule
  each := by
    intro id howns rules hrules
    rw [h.absent id howns] at hrules
    cases hrules

/-- The parent is no generation of its own chain if it was there when there were none. -/
theorem Unbuilt.ne_parentId (h : Unbuilt chain start) (hparent : start.rules? chain.parentId = some rules)
    (howns : chain.Owns id) : id ≠ chain.parentId := by
  rintro rfl
  rw [h.absent _ howns] at hparent
  cases hparent

/-- Nothing jumped to a generation when there were none. -/
theorem Unbuilt.target?_ne (h : Unbuilt chain start) (hlimit : generation < Generation.limit) {name : String}
    (hrules : start.rules? ⟨chain.table, name⟩ = some rules) {rule : Rule} (hrule : rule ∈ rules) :
    rule.target? ≠ some (Generation.name chain.stem generation) := by
  intro htarget
  have habsent : start.rules? ⟨chain.table, Generation.name chain.stem generation⟩ = none :=
    h.absent _ (owns_generationId chain hlimit)
  rcases Tables.canLoad_iff.mp (h.noDangling _ rules hrules rule hrule) _ htarget with hstandard | hchain
  · exact Generation.name_notMem_standardTargets _ _ hstandard
  · rw [Tables.hasChain, habsent] at hchain
    cases hchain

namespace Accounted

/-- Nothing jumps to a generation that is not live. -/
theorem isReferenced_eq_false (h : Accounted chain start live loose before) (hunbuilt : Unbuilt chain start)
    (hlimit : generation < Generation.limit) (hnot : generation ∉ live) :
    before.tables.isReferenced (chain.generationId generation) = false := by
  rw [Bool.eq_false_iff]
  intro hreferenced
  obtain ⟨name, rules, rule, hrules, hrule, htarget⟩ := Tables.isReferenced_iff.mp hreferenced
  have hrules : before.tables.rules? ⟨chain.table, name⟩ = some rules := hrules
  have htarget : rule.target? = some (Generation.name chain.stem generation) := htarget
  by_cases howns : chain.Owns ⟨chain.table, name⟩
  · rw [← rulesOf_of_rules? hrules] at hrule
    have hjump := h.inner _ howns rule hrule
    rw [Generation.jumped?, htarget, Option.bind_some, Generation.ofName?_name _ _ hlimit] at hjump
    cases hjump
  by_cases hparent : (⟨chain.table, name⟩ : ChainId) = chain.parentId
  · rw [hparent, h.parent] at hrules
    obtain ⟨first, hfirst, rfl⟩ := Option.map_eq_some_iff.mp hrules
    rcases List.mem_append.mp hrule with hlink | hrule
    · obtain ⟨other, hother, rfl⟩ := List.mem_map.mp hlink
      rw [Chain.link, Generation.target?_jumpTo] at htarget
      obtain rfl := Generation.name_inj.mp (Option.some.inj htarget)
      exact hnot hother
    · exact hunbuilt.target?_ne hlimit hfirst hrule htarget
  · rw [h.others _ howns hparent] at hrules
    exact hunbuilt.target?_ne hlimit hrules hrule htarget

/-- A call that changes nothing leaves the accounts as they are, and a loose generation need not be counted any more
if it is left over now, should it be there. -/
theorem of_same_tables (h : Accounted chain start live loose before) {counted : List Nat}
    (hgrown : ∀ id, LeftOver before.history id → LeftOver history id)
    (hloose : ∀ generation ∈ loose, generation ∈ counted ∨
      ∀ rules, before.tables.rules? (chain.generationId generation) = some rules →
        LeftOver history (chain.generationId generation)) :
    Accounted chain start live counted ⟨before.tables, history⟩ where
  nodup := h.nodup
  ready := h.ready
  parent := h.parent
  others := h.others
  inner := h.inner
  each := by
    intro id howns rules hrules
    rcases h.each id howns rules hrules with ⟨other, hother, rfl⟩ | hleft
    · rcases List.mem_append.mp hother with hlive | hother
      · exact .inl ⟨other, List.mem_append_left counted hlive, rfl⟩
      · rcases hloose other hother with hcounted | hleft
        · exact .inl ⟨other, List.mem_append_right live hcounted, rfl⟩
        · exact .inr (hleft rules hrules)
    · exact .inr (hgrown id hleft)

/-- A call that failed leaves the accounts as they are. -/
theorem of_error (h : Accounted chain start live loose before) (set : RuleSet) (call : Call) (cause : Filter.Error) :
    Accounted chain start live loose ⟨before.tables, ⟨set, call, .error cause⟩ :: before.history⟩ :=
  h.of_same_tables (fun _ hleft => hleft.cons creates_eq_false_of_error) fun _ hloose => .inl hloose

/-- Listing a chain leaves the accounts as they are. -/
theorem of_list (h : Accounted chain start live loose before) (set : RuleSet) (id : ChainId) (lines : List String) :
    Accounted chain start live loose ⟨before.tables, ⟨set, ⟨id, .list⟩, .ok lines⟩ :: before.history⟩ :=
  h.of_same_tables (fun _ hleft => hleft.cons (creates_eq_false_of_operation Operation.noConfusion))
    fun _ hloose => .inl hloose

/-- A loose generation is left over once its removal is made to fail. -/
theorem of_spares (h : Accounted chain start live [generation] before) {call : Call} {cause : Filter.Error}
    (hspares : Entry.Spares ⟨set, call, .error cause⟩ (chain.generationId generation)) :
    Accounted chain start live [] ⟨before.tables, ⟨set, call, .error cause⟩ :: before.history⟩ := by
  refine h.of_same_tables (fun _ hleft => hleft.cons creates_eq_false_of_error) ?_
  intro other hother
  obtain rfl := List.mem_singleton.mp hother
  exact .inr fun _ _ => leftOver_of_spares hspares before.history

/-- A loose generation that is gone does not count. -/
theorem of_gone (h : Accounted chain start live [generation] before)
    (hgone : before.tables.rules? (chain.generationId generation) = none) : Accounted chain start live [] before := by
  refine h.of_same_tables (fun _ hleft => hleft) ?_
  intro other hother
  obtain rfl := List.mem_singleton.mp hother
  refine .inr fun rules hrules => ?_
  rw [hgone] at hrules
  cases hrules

/-- A call that changes just one generation, which is not live, leaves the accounts with that generation loose. -/
theorem of_sameBut (h : Accounted chain start live loose before) (hloose : ∀ other ∈ loose, other = generation)
    (hlimit : generation < Generation.limit) (hnot : generation ∉ live)
    (hparent : chain.generationId generation ≠ chain.parentId)
    (hsame : before.tables.SameBut (chain.generationId generation) tables)
    (hinner : ∀ rule ∈ rulesOf tables (chain.generationId generation), Generation.jumped? chain.stem rule = none)
    (hcreates : ∀ id, id ≠ chain.generationId generation → entry.creates id = false) :
    Accounted chain start live [generation] ⟨tables, entry :: before.history⟩ where
  nodup := h.nodup
  ready := by
    intro other hother
    obtain ⟨hother_limit, ⟨rules, hrules⟩, hunmentioned⟩ := h.ready other hother
    refine ⟨hother_limit, ⟨rules, ?_⟩, hunmentioned⟩
    dsimp only
    rw [hsame _ fun heq => hnot (generationId_inj.mp heq ▸ hother), hrules]
  parent := (hsame _ hparent.symm).trans h.parent
  others := by
    intro id howns hid
    refine (hsame id ?_).trans (h.others id howns hid)
    rintro rfl
    exact howns (owns_generationId chain hlimit)
  inner := by
    intro id howns
    by_cases heq : id = chain.generationId generation
    · rw [heq]
      exact hinner
    · rw [rulesOf, hsame id heq]
      exact h.inner id howns
  each := by
    intro id howns rules hrules
    by_cases heq : id = chain.generationId generation
    · exact .inl ⟨generation, List.mem_append_right live (List.mem_singleton_self generation), heq⟩
    · rcases h.each id howns rules ((hsame id heq).symm.trans hrules) with ⟨other, hother, rfl⟩ | hleft
      · rcases List.mem_append.mp hother with hlive | hother
        · exact .inl ⟨other, List.mem_append_left [generation] hlive, rfl⟩
        · rw [hloose other hother] at heq
          exact absurd rfl heq
      · exact .inr (hleft.cons (hcreates id heq))

/-- A call that changes just the parent's links leaves the accounts with the generations linked now. -/
theorem of_relink (h : Accounted chain start live loose before) (hunbuilt : Unbuilt chain start)
    (hparent : start.rules? chain.parentId = some rules) {change : List Rule → List Rule} {linked counted : List Nat}
    (hchange : change (live.map chain.link ++ rules) = linked.map chain.link ++ rules) (hnodup : linked.Nodup)
    (hready : ∀ generation ∈ linked, Ready chain before.tables generation)
    (hcounted : ∀ generation ∈ live ++ loose, generation ∈ linked ++ counted)
    (hcreates : ∀ id, entry.creates id = false) :
    Accounted chain start linked counted
      ⟨before.tables.modify chain.parentId change, entry :: before.history⟩ := by
  have hsame (id : ChainId) (hid : id ≠ chain.parentId) :
      (before.tables.modify chain.parentId change).rules? id = before.tables.rules? id := by
    rw [Tables.rules?_modify, if_neg hid]
  have hown (id : ChainId) (howns : chain.Owns id) :
      (before.tables.modify chain.parentId change).rules? id = before.tables.rules? id :=
    hsame id (hunbuilt.ne_parentId hparent howns)
  refine ⟨hnodup, ?_, ?_, ?_, ?_, ?_⟩
  · intro generation hlinked
    obtain ⟨hlimit, hbuilt, hunmentioned⟩ := hready generation hlinked
    refine ⟨hlimit, ?_, hunmentioned⟩
    rw [hown _ (owns_generationId chain hlimit)]
    exact hbuilt
  · rw [Tables.rules?_modify, if_pos rfl, h.parent, hparent, Option.map_some, Option.map_some, hchange,
      Option.map_some]
  · intro id howns hid
    exact (hsame id hid).trans (h.others id howns hid)
  · intro id howns
    rw [rulesOf, hown id howns]
    exact h.inner id howns
  · intro id howns rules hrules
    rcases h.each id howns rules ((hown id howns).symm.trans hrules) with ⟨generation, hgeneration, heq⟩ | hleft
    · exact .inl ⟨generation, hcounted generation hgeneration, heq⟩
    · exact .inr (hleft.cons (hcreates id))

/-! ### Calls on one generation -/

/-- Emptying a loose generation works, or leaves it over. -/
theorem clear_step (h : Accounted chain start live [generation] before) (hunbuilt : Unbuilt chain start)
    (hparent : start.rules? chain.parentId = some rules) (hlimit : generation < Generation.limit)
    (hnot : generation ∉ live) (hbuilt : ∃ rules, before.tables.rules? (chain.generationId generation) = some rules)
    (hstep : Journal.Step set before ⟨chain.generationId generation, .clearChain⟩ reply after) :
    (∃ cause, reply = .error cause ∧ Accounted chain start live [] after) ∨
      ∃ lines, reply = .ok lines ∧ Accounted chain start live [generation] after ∧
        after.tables.rules? (chain.generationId generation) = some [] := by
  have happly := Tables.apply_clearChain_eq_ok.mpr ⟨hbuilt, rfl, rfl⟩
  obtain ⟨content, hcontent⟩ := hbuilt
  have hempty : (before.tables.modify (chain.generationId generation) fun _ => []).rules?
      (chain.generationId generation) = some [] := by
    rw [Tables.rules?_modify, if_pos rfl, hcontent, Option.map_some]
  rcases hstep.of_apply happly with ⟨rfl, rfl⟩ | ⟨rfl, rfl⟩
  · exact .inl ⟨_, rfl, h.of_spares ⟨.inl rfl, rfl⟩⟩
  · refine .inr ⟨[], rfl, ?_, hempty⟩
    refine h.of_sameBut (fun _ hother => List.mem_singleton.mp hother) hlimit hnot
      (hunbuilt.ne_parentId hparent (owns_generationId chain hlimit)) (Tables.sameBut_of_apply happly) ?_ ?_
    · rw [rulesOf_of_rules? hempty]
      exact List.forall_mem_nil _
    · intro id _
      exact creates_eq_false_of_operation Operation.noConfusion

/-- A generation that is deleted does not count. -/
theorem of_delete (h : Accounted chain start live loose before) (hloose : ∀ other ∈ loose, other = generation)
    (hunbuilt : Unbuilt chain start) (hparent : start.rules? chain.parentId = some rules)
    (hlimit : generation < Generation.limit) (hnot : generation ∉ live) {lines : List String}
    (hdone : before.tables.apply ⟨chain.generationId generation, .deleteChain⟩ = .ok (lines, tables)) (reply : Reply) :
    Accounted chain start live []
      ⟨tables, ⟨set, ⟨chain.generationId generation, .deleteChain⟩, reply⟩ :: before.history⟩ := by
  have hgone : tables.rules? (chain.generationId generation) = none := by
    obtain ⟨-, -, -, rfl⟩ := Tables.apply_deleteChain_eq_ok.mp hdone
    rw [Tables.rules?_removeChain, if_pos rfl]
  refine (h.of_sameBut hloose hlimit hnot (hunbuilt.ne_parentId hparent (owns_generationId chain hlimit))
    (Tables.sameBut_of_apply hdone) ?_ ?_).of_gone hgone
  · rw [rulesOf, hgone]
    exact List.forall_mem_nil _
  · intro id _
    exact creates_eq_false_of_operation Operation.noConfusion

/-- Deleting a loose generation that is empty works, or leaves it over. -/
theorem delete_step (h : Accounted chain start live [generation] before) (hunbuilt : Unbuilt chain start)
    (hparent : start.rules? chain.parentId = some rules) (hlimit : generation < Generation.limit)
    (hnot : generation ∉ live) (hempty : before.tables.rules? (chain.generationId generation) = some [])
    (hstep : Journal.Step set before ⟨chain.generationId generation, .deleteChain⟩ reply after) :
    Accounted chain start live [] after := by
  have hfree := h.isReferenced_eq_false hunbuilt hlimit hnot
  have happly := Tables.apply_deleteChain_eq_ok.mpr ⟨hempty, hfree, rfl, rfl⟩
  rcases hstep.of_apply happly with ⟨rfl, rfl⟩ | ⟨rfl, rfl⟩
  · exact h.of_spares ⟨.inr rfl, rfl⟩
  · exact h.of_delete (fun _ hother => List.mem_singleton.mp hother) hunbuilt hparent hlimit hnot happly _

/-! ### Calls on the parent -/

/-- A link that is taken out was one of a live generation, which is loose then. -/
theorem unlink_step (h : Accounted chain start live [] before) (hunbuilt : Unbuilt chain start)
    (hparent : start.rules? chain.parentId = some rules) (hlimit : generation < Generation.limit)
    (hstep : Journal.Step set before ⟨chain.parentId, .delete (chain.link generation)⟩ reply after) :
    (∃ cause, reply = .error cause ∧ Accounted chain start live [] after) ∨
      ∃ lines, reply = .ok lines ∧ generation ∈ live ∧
        Accounted chain start (live.erase generation) [generation] after := by
  rcases hstep.cases with ⟨cause, rfl, rfl⟩ | ⟨lines, tables, rfl, hdone, rfl⟩
  · exact .inl ⟨cause, rfl, h.of_error set _ cause⟩
  obtain ⟨⟨content, hcontent, hlink⟩, -, rfl⟩ := Tables.apply_delete_eq_ok.mp hdone
  rw [h.parent, hparent, Option.map_some] at hcontent
  rw [← Option.some.inj hcontent, List.mem_append] at hlink
  have hlive : generation ∈ live := by
    rcases hlink with hlink | hrule
    · obtain ⟨other, hother, heq⟩ := List.mem_map.mp hlink
      rw [← link_injective chain heq]
      exact hother
    · exact absurd (Generation.target?_jumpTo _) (hunbuilt.target?_ne hlimit hparent hrule)
  refine .inr ⟨lines, rfl, hlive, h.of_relink hunbuilt hparent ?_ (h.nodup.erase generation) ?_ ?_ ?_⟩
  · rw [List.erase_append_left _ (List.mem_map_of_mem hlive), List.map_erase (link_injective chain)]
  · intro other hother
    exact h.ready other (List.mem_of_mem_erase hother)
  · intro other hother
    rw [List.append_nil] at hother
    by_cases heq : other = generation
    · exact List.mem_append_right _ (List.mem_singleton.mpr heq)
    · exact List.mem_append_left _ ((List.mem_erase_of_ne heq).mpr hother)
  · intro id
    exact creates_eq_false_of_operation Operation.noConfusion

/-- A loose generation that is linked is live. -/
theorem link_step (h : Accounted chain start live [generation] before) (hunbuilt : Unbuilt chain start)
    (hparent : start.rules? chain.parentId = some rules) (hready : Ready chain before.tables generation)
    (hnot : generation ∉ live)
    (hstep : Journal.Step set before ⟨chain.parentId, .bulkInsert 1 [chain.link generation]⟩ reply after) :
    (∃ cause, reply = .error cause ∧ after.tables = before.tables ∧ Accounted chain start live [generation] after) ∨
      ∃ lines, reply = .ok lines ∧ Accounted chain start (generation :: live) [] after := by
  rcases hstep.cases with ⟨cause, rfl, rfl⟩ | ⟨lines, tables, rfl, hdone, rfl⟩
  · exact .inl ⟨cause, rfl, rfl, h.of_error set _ cause⟩
  obtain ⟨-, -, -, rfl⟩ := Tables.apply_bulkInsert_eq_ok.mp hdone
  refine .inr ⟨lines, rfl, h.of_relink hunbuilt hparent ?_ (List.nodup_cons.mpr ⟨hnot, h.nodup⟩) ?_ ?_ ?_⟩
  · simp [Tables.insertAt]
  · exact List.forall_mem_cons.mpr ⟨hready, h.ready⟩
  · intro other hother
    rw [List.append_nil, List.mem_cons]
    exact (List.mem_append.mp hother).symm.imp_left List.mem_singleton.mp
  · intro id
    exact creates_eq_false_of_operation Operation.noConfusion

end Accounted

/-! ## Putting a rule set into force -/

variable {found : List Nat} {journal : Journal}

/-- Whether each generation of a chain is accounted for. -/
def Kept (chain : Chain) (start : Tables) (journal : Journal) : Prop :=
  ∃ live loose, Accounted chain start live loose journal

theorem Accounted.kept (h : Accounted chain start live loose journal) : Kept chain start journal := ⟨live, loose, h⟩

/-- Throwing away a loose generation leaves it over, or it is gone. -/
theorem discard_accounted (hunbuilt : Unbuilt chain start) (hparent : start.rules? chain.parentId = some rules)
    (h : Accounted chain start live [generation] journal) (hlimit : generation < Generation.limit)
    (hnot : generation ∉ live) (hbuilt : ∃ rules, journal.tables.rules? (chain.generationId generation) = some rules)
    (error : EnforceError) :
    (discard (chain.generationId generation) error).Ensures (Journal.Step set) (Kept chain start)
      (fun result after => result = .error error ∧ Accounted chain start live [] after) journal := by
  intro reply cleared hclear
  rcases h.clear_step hunbuilt hparent hlimit hnot hbuilt hclear with
    ⟨cause, rfl, hcleared⟩ | ⟨lines, rfl, hcleared, hempty⟩
  · refine ⟨hcleared.kept, ?_⟩
    intro reply deleted hdelete
    have hdeleted : Accounted chain start live [] deleted := by
      rcases hdelete.cases with ⟨cause, rfl, rfl⟩ | ⟨lines, tables, rfl, hdone, rfl⟩
      · exact hcleared.of_error set _ _
      · exact hcleared.of_delete (by simp) hunbuilt hparent hlimit hnot hdone _
    exact ⟨hdeleted.kept, rfl, hdeleted⟩
  · refine ⟨hcleared.kept, ?_⟩
    intro reply deleted hdelete
    have hdeleted := hcleared.delete_step hunbuilt hparent hlimit hnot hempty hdelete
    exact ⟨hdeleted.kept, rfl, hdeleted⟩

/-- Removing generations keeps the accounts. If it ends well all of them were live, and none is any more. -/
theorem removeAll_accounted (hunbuilt : Unbuilt set.chain start)
    (hparent : start.rules? set.chain.parentId = some rules) (hlimits : ∀ old ∈ found, old < Generation.limit)
    (h : Accounted set.chain start live [] journal) :
    (removeAll set.chain found).Ensures (Journal.Step set) (Kept set.chain start)
      (fun result after => (∃ linked, Accounted set.chain start linked [] after) ∧
        (result = .ok () → (∀ old ∈ found, old ∈ live) ∧ Accounted set.chain start (live.diff found) [] after) ∧
        ∀ id, id ≠ set.chain.parentId → (∀ old ∈ found, id ≠ set.chain.generationId old) →
          after.tables.rules? id = journal.tables.rules? id) journal := by
  induction found generalizing live journal with
  | nil => exact ⟨⟨live, h⟩, fun _ => ⟨by simp, h⟩, fun _ _ _ => rfl⟩
  | cons old rest ih =>
    obtain ⟨hlimit, hrest⟩ := List.forall_mem_cons.mp hlimits
    rw [removeAll_cons]
    have hself (id : ChainId) (hid : ∀ other ∈ old :: rest, id ≠ set.chain.generationId other) :
        id ≠ set.chain.generationId old := hid old (List.mem_cons_self ..)
    -- taking the link out
    intro reply unlinked hunlink
    rcases h.unlink_step hunbuilt hparent hlimit hunlink with ⟨cause, rfl, hkept⟩ | ⟨lines, rfl, hlive, hunlinked⟩
    · exact ⟨hkept.kept, ⟨live, hkept⟩, fun hok => (nomatch hok), fun id hid _ => hunlink.sameBut id hid⟩
    refine ⟨hunlinked.kept, ?_⟩
    have hnot : old ∉ live.erase old := h.nodup.not_mem_erase
    have hbuilt : ∃ rules, unlinked.tables.rules? (set.chain.generationId old) = some rules := by
      rw [hunlink.sameBut _ (hunbuilt.ne_parentId hparent (owns_generationId _ hlimit))]
      exact (h.ready old hlive).built
    -- emptying the generation
    intro reply cleared hclear
    have hclearSame (id : ChainId) (hparent : id ≠ set.chain.parentId)
        (hid : ∀ other ∈ old :: rest, id ≠ set.chain.generationId other) :
        cleared.tables.rules? id = journal.tables.rules? id :=
      (hclear.sameBut id (hself id hid)).trans (hunlink.sameBut id hparent)
    rcases hunlinked.clear_step hunbuilt hparent hlimit hnot hbuilt hclear with
      ⟨cause, rfl, hcleared⟩ | ⟨lines, rfl, hcleared, hempty⟩
    · exact ⟨hcleared.kept, ⟨_, hcleared⟩, fun hok => (nomatch hok), hclearSame⟩
    refine ⟨hcleared.kept, ?_⟩
    -- deleting it
    intro reply deleted hdelete
    have hdeleteSame (id : ChainId) (hparent : id ≠ set.chain.parentId)
        (hid : ∀ other ∈ old :: rest, id ≠ set.chain.generationId other) :
        deleted.tables.rules? id = journal.tables.rules? id :=
      (hdelete.sameBut id (hself id hid)).trans (hclearSame id hparent hid)
    have hdeleted := hcleared.delete_step hunbuilt hparent hlimit hnot hempty hdelete
    refine ⟨hdeleted.kept, ?_⟩
    cases reply with
    | error cause => exact ⟨⟨_, hdeleted⟩, fun hok => (nomatch hok), hdeleteSame⟩
    | ok _ =>
      refine (ih hrest hdeleted).mono (fun _ hkept => hkept) ?_
      rintro result after ⟨hlinked, hall, hsame⟩
      refine ⟨hlinked, fun hok => ?_, fun id hparent hid => ?_⟩
      · obtain ⟨hmem, hdiff⟩ := hall hok
        refine ⟨List.forall_mem_cons.mpr ⟨hlive, fun other hother => List.mem_of_mem_erase (hmem other hother)⟩, ?_⟩
        rw [List.diff_cons]
        exact hdiff
      · rw [hsame id hparent fun other hother => hid other (List.mem_cons_of_mem old hother),
          hdeleteSame id hparent hid]

/-- What putting a rule set into force comes to: the generations are accounted for, and if it ends well the only live
one was not there before and holds the rules. -/
def Settled (set : RuleSet) (start before : Tables) (result : Except EnforceError Unit) (after : Journal) : Prop :=
  (∃ live, Accounted set.chain start live [] after) ∧
    (result = .ok () → ∃ generation, before.rules? (set.chain.generationId generation) = none ∧
      Accounted set.chain start [generation] [] after ∧
      after.tables.rules? (set.chain.generationId generation) = some set.rules)

theorem settled_of_error {start before : Tables} (h : Accounted set.chain start live [] after) (cause : EnforceError) :
    Settled set start before (.error cause) after :=
  ⟨⟨live, h⟩, fun hok => nomatch hok⟩

/-- Linking a generation that has been filled, and removing what was found before, settles the rule set, if all that was
linked was found, should all that was found have been linked. -/
theorem linkFilled_settled {tables : Tables} (hunbuilt : Unbuilt set.chain start)
    (hparent : start.rules? set.chain.parentId = some rules)
    (hlimits : ∀ old ∈ found, old < Generation.limit) (hnewer : ∀ old ∈ found, old < generation)
    (hfound : (∀ old ∈ found, old ∈ live) → ∀ old ∈ live, old ∈ found)
    (h : Accounted set.chain start live [generation] journal) (hready : Ready set.chain journal.tables generation)
    (hnot : generation ∉ live) (hnew : tables.rules? (set.chain.generationId generation) = none)
    (hfull : journal.tables.rules? (set.chain.generationId generation) = some set.rules) :
    (linkFilled set found generation).Ensures (Journal.Step set) (Kept set.chain start) (Settled set start tables)
      journal := by
  intro reply linked hstep
  rcases h.link_step hunbuilt hparent hready hnot hstep with ⟨cause, rfl, hsame, hkept⟩ | ⟨lines, rfl, hlinked⟩
  · refine ⟨hkept.kept, ?_⟩
    have hbuilt : ∃ rules, linked.tables.rules? (set.chain.generationId generation) = some rules := by
      rw [hsame]
      exact hready.built
    refine (discard_accounted hunbuilt hparent hkept hready.limit hnot hbuilt _).mono (fun _ hafter => hafter) ?_
    rintro result after ⟨rfl, hafter⟩
    exact settled_of_error hafter _
  · refine ⟨hlinked.kept, ?_⟩
    refine (removeAll_accounted hunbuilt hparent hlimits hlinked).mono (fun _ hafter => hafter) ?_
    rintro result after ⟨hlive, hall, hsame⟩
    refine ⟨hlive, fun hok => ⟨generation, hnew, ?_, ?_⟩⟩
    · obtain ⟨hmem, hdiff⟩ := hall hok
      -- what was found is older than the new generation
      have hold : ∀ old ∈ found, old ∈ live := by
        intro old hfound
        exact (List.mem_cons.mp (hmem old hfound)).resolve_left (Nat.ne_of_lt (hnewer old hfound))
      have honly : (generation :: live).diff found = [generation] := by
        refine List.perm_singleton.mp ((List.perm_ext_iff_of_nodup hdiff.nodup (List.nodup_singleton _)).mpr ?_)
        intro other
        rw [List.Nodup.mem_sdiff_iff hlinked.nodup, List.mem_cons, List.mem_singleton]
        constructor
        · rintro ⟨rfl | hother, hnotFound⟩
          · rfl
          · exact absurd (hfound hold other hother) hnotFound
        · rintro rfl
          exact ⟨.inl rfl, fun hmem => Nat.lt_irrefl _ (hnewer _ hmem)⟩
      rw [honly] at hdiff
      exact hdiff
    · have hown := hunbuilt.ne_parentId hparent (owns_generationId set.chain hready.limit)
      rw [hsame _ hown, hstep.sameBut _ hown, hfull]
      intro old hold heq
      rw [generationId_inj] at heq
      exact Nat.ne_of_gt (hnewer old hold) heq

/-- Filling a generation that has just been added, linking it and removing what was found settles the rule set. -/
theorem fillAdded_settled {tables : Tables} (hunbuilt : Unbuilt set.chain start)
    (hparent : start.rules? set.chain.parentId = some rules)
    (hrules : ∀ rule ∈ set.rules, Generation.jumped? set.chain.stem rule = none)
    (hlimits : ∀ old ∈ found, old < Generation.limit) (hnewer : ∀ old ∈ found, old < generation)
    (hfound : (∀ old ∈ found, old ∈ live) → ∀ old ∈ live, old ∈ found)
    (h : Accounted set.chain start live [generation] journal) (hready : Ready set.chain journal.tables generation)
    (hnot : generation ∉ live) (hnew : tables.rules? (set.chain.generationId generation) = none)
    (hempty : journal.tables.rules? (set.chain.generationId generation) = some []) :
    (fillAdded set found generation).Ensures (Journal.Step set) (Kept set.chain start) (Settled set start tables)
      journal := by
  have hown := owns_generationId set.chain hready.limit
  intro reply filled hstep
  rcases hstep.cases with ⟨cause, rfl, rfl⟩ | ⟨lines, filledTables, rfl, hdone, rfl⟩
  · refine ⟨(h.of_error set _ cause).kept, ?_⟩
    refine (discard_accounted hunbuilt hparent (h.of_error set _ cause) hready.limit hnot hready.built _).mono
      (fun _ hafter => hafter) ?_
    rintro result after ⟨rfl, hafter⟩
    exact settled_of_error hafter _
  have hfull : filledTables.rules? (set.chain.generationId generation) = some set.rules := by
    obtain ⟨-, -, -, rfl⟩ := Tables.apply_bulkAppend_eq_ok.mp hdone
    rw [Tables.rules?_modify, if_pos rfl, hempty, Option.map_some, List.nil_append]
  have hfilled : Accounted set.chain start live [generation] ⟨filledTables,
      ⟨set, ⟨set.chain.generationId generation, .bulkAppend set.rules⟩, .ok lines⟩ :: journal.history⟩ := by
    refine h.of_sameBut (fun _ hother => List.mem_singleton.mp hother) hready.limit hnot
      (hunbuilt.ne_parentId hparent hown) (Tables.sameBut_of_apply hdone) ?_ ?_
    · rw [rulesOf_of_rules? hfull]
      exact hrules
    · intro id _
      exact creates_eq_false_of_operation Operation.noConfusion
  exact ⟨hfilled.kept, linkFilled_settled hunbuilt hparent hlimits hnewer hfound hfilled
    ⟨hready.limit, ⟨_, hfull⟩, hready.unmentioned⟩ hnot hnew hfull⟩

/-- Building a generation that is newer than those found, linking it and removing those settles the rule set, as long as
generations have ten digits. -/
theorem replace_settled (hunbuilt : Unbuilt set.chain start) (hparent : start.rules? set.chain.parentId = some rules)
    (hrules : ∀ rule ∈ set.rules, Generation.jumped? set.chain.stem rule = none)
    (h : Accounted set.chain start live [] journal) (now : Nat) :
    (replace set (Generation.inListing set.chain.stem
        (Tables.listing set.chain.parent (live.map set.chain.link ++ rules))) now).Ensures (Journal.Step set)
      (fun after => TenDigits after.history → Kept set.chain start after)
      (fun result after => TenDigits after.history → Settled set start journal.tables result after) journal := by
  rw [replace_eq]
  generalize hfound : Generation.inListing set.chain.stem
    (Tables.listing set.chain.parent (live.map set.chain.link ++ rules)) = found
  have hlimits : ∀ old ∈ found, old < Generation.limit := by
    rw [← hfound]
    exact fun old hold => Generation.lt_limit_of_mem_inListing hunbuilt.blankFree hold
  have hnewer : ∀ old ∈ found, old < Generation.next found now := by
    rw [← hfound]
    exact Generation.lt_next (Generation.pairwise_inListing _ _) now
  have hmentioned {generation : Nat}
      (hname : Generation.inWords? set.chain.stem.toList set.chain.parent.toList = some generation) :
      generation ∈ found := by
    rw [← hfound]
    exact Generation.mem_inListing_of_chain hunbuilt.blankFree hname _
  -- what the parent's name mentions is found, but never linked
  have hall : (∀ old ∈ found, old ∈ live) → ∀ old ∈ live, old ∈ found := by
    intro hlive old hold
    cases hname : Generation.inWords? set.chain.stem.toList set.chain.parent.toList with
    | some generation =>
      exact absurd hname (h.ready generation (hlive generation (hmentioned hname))).unmentioned
    | none =>
      rw [← hfound]
      exact Generation.mem_inListing_of_jumpTo hunbuilt.blankFree hname (h.ready old hold).limit
        (List.mem_append_left rules (List.mem_map_of_mem hold))
  have hunmentioned : Generation.inWords? set.chain.stem.toList set.chain.parent.toList ≠
      some (Generation.next found now) :=
    fun hname => Nat.lt_irrefl _ (hnewer _ (hmentioned hname))
  generalize Generation.next found now = generation at hnewer hunmentioned ⊢
  intro reply created hstep
  rcases hstep.cases with ⟨cause, rfl, rfl⟩ | ⟨lines, tables, rfl, hdone, hcreatedEq⟩
  · exact ⟨fun _ => (h.of_error set _ cause).kept, fun _ => settled_of_error (h.of_error set _ cause) _⟩
  by_cases hdigits : TenDigits created.history
  case neg => exact ⟨fun hagain => absurd hagain hdigits, ensures_of_not_tenDigits _ hdigits⟩
  case pos =>
  have hlimit : generation < Generation.limit := by
    rw [hcreatedEq] at hdigits
    exact hdigits _ (List.mem_cons_self ..) generation rfl
  have hown := hunbuilt.ne_parentId hparent (owns_generationId set.chain hlimit)
  obtain ⟨hnew, -, hadded⟩ := Tables.apply_newChain_eq_ok.mp hdone
  have hempty : tables.rules? (set.chain.generationId generation) = some [] := by
    rw [hadded, Tables.rules?_addChain hnew, if_pos rfl]
  have hnot : generation ∉ live := by
    intro hlive
    obtain ⟨content, hcontent⟩ := (h.ready generation hlive).built
    rw [hnew] at hcontent
    cases hcontent
  have hcreated : Accounted set.chain start live [generation] created := by
    rw [hcreatedEq]
    refine h.of_sameBut (by simp) hlimit hnot hown (Tables.sameBut_of_apply hdone) ?_ ?_
    · rw [rulesOf_of_rules? hempty]
      exact List.forall_mem_nil _
    · intro id hid
      exact creates_eq_false_of_chain hid
  refine ⟨fun _ => hcreated.kept, ?_⟩
  rw [hcreatedEq] at hcreated ⊢
  refine (fillAdded_settled hunbuilt hparent hrules hlimits hnewer hall hcreated
    ⟨hlimit, ⟨[], hempty⟩, hunmentioned⟩ hnot hnew hempty).mono ?_ ?_
  · exact fun _ hkept _ => hkept
  · exact fun _ _ hsettled _ => hsettled

/-- Putting a rule set into force that jumps to no generation of its own chain settles it, as long as generations have
ten digits. -/
theorem enforce_accounted (hunbuilt : Unbuilt set.chain start)
    (hrules : ∀ rule ∈ set.rules, Generation.jumped? set.chain.stem rule = none)
    (h : TenDigits journal.history → ∃ live, Accounted set.chain start live [] journal) :
    (enforce set).Ensures (Journal.Step set) (fun after => TenDigits after.history → Kept set.chain start after)
      (fun result after => TenDigits after.history →
        TenDigits journal.history ∧ Settled set start journal.tables result after) journal := by
  by_cases hdigits : TenDigits journal.history
  case neg => exact ensures_of_not_tenDigits _ hdigits
  case pos =>
  obtain ⟨live, haccounted⟩ := h hdigits
  rw [enforce_eq]
  intro reply listed hstep
  rcases hstep.cases with ⟨cause, rfl, rfl⟩ | ⟨lines, tables, rfl, hdone, rfl⟩
  · have hfailed := haccounted.of_error set ⟨set.chain.parentId, .list⟩ cause
    exact ⟨fun _ => hfailed.kept, fun _ => ⟨hdigits, settled_of_error hfailed _⟩⟩
  obtain ⟨content, hcontent, rfl, rfl⟩ := Tables.apply_list_eq_ok.mp hdone
  rw [haccounted.parent] at hcontent
  obtain ⟨rules, hparent, rfl⟩ := Option.map_eq_some_iff.mp hcontent
  have hlisted := haccounted.of_list set set.chain.parentId
    (Tables.listing set.chain.parentId.name (live.map set.chain.link ++ rules))
  refine ⟨fun _ => hlisted.kept, ?_⟩
  intro now
  refine (replace_settled hunbuilt hparent hrules hlisted now).mono (fun _ hkept => hkept) ?_
  intro result after hsettled hafter
  exact ⟨hdigits, hsettled hafter⟩

end Enforcer

end OverlayHost
