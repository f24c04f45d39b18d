import OverlayHost.Proofs.Enforcer.Parents
import OverlayHost.Proofs.Filter.Dangling

/-!
# The shape of the tables when nothing fails

Tables that are what they were at the start, with some generations added: each holds the rules of its rule set, and its
parent links it above the rules it had at the start, the last one linked on top. `Shape.add_link` and `Shape.remove`
say that the calls which build and link a generation, and those which remove one, succeed, and lead from one such shape
to another.
-/

set_option autoImplicit false

namespace OverlayHost.Enforcer

open OverlayHost.Filter (Tables ChainId)

variable {chains : List Chain} {chain : Chain} {set : RuleSet} {start tables : Tables} {live : List (RuleSet × Nat)}
  {generation : Nat}

/-- The links of live generations in one parent, in the order of the generations. -/
def jumps (live : List (RuleSet × Nat)) (parent : ChainId) : List Rule :=
  (live.filter fun one => one.1.chain.parentId = parent).map fun one => one.1.chain.link one.2

/-- Tables that differ from those at the start by live generations only, the last one linked first. -/
structure Shape (chains : List Chain) (start : Tables) (live : List (RuleSet × Nat)) (tables : Tables) : Prop where
  used : ∀ one ∈ live, one.1.chain ∈ chains
  limit : ∀ one ∈ live, one.2 < Generation.limit
  /-- Rules jump only to what was there at the start. -/
  loads : ∀ one ∈ live, ∀ rule ∈ one.1.rules, start.canLoad one.1.chain.table rule = true
  distinct : (live.map fun one => one.1.chain.generationId one.2).Nodup
  generations : ∀ one ∈ live, tables.rules? (one.1.chain.generationId one.2) = some one.1.rules
  originals : ∀ id rules, start.rules? id = some rules → tables.rules? id = some (jumps live id ++ rules)
  others : ∀ id, start.rules? id = none → (∀ one ∈ live, id ≠ one.1.chain.generationId one.2) →
    tables.rules? id = none

theorem shape_nil (chains : List Chain) (start : Tables) : Shape chains start [] start where
  used := by simp
  limit := by simp
  loads := by simp
  distinct := List.nodup_nil
  generations := by simp
  originals := fun _ _ hrules => hrules
  others := fun _ hnone _ => hnone

theorem jumps_cons (one : RuleSet × Nat) (live : List (RuleSet × Nat)) (parent : ChainId) :
    jumps (one :: live) parent =
      if one.1.chain.parentId = parent then one.1.chain.link one.2 :: jumps live parent else jumps live parent := by
  unfold jumps
  split
  next heq => rw [List.filter_cons_of_pos (by simpa using heq), List.map_cons]
  next hne => rw [List.filter_cons_of_neg (by simpa using hne)]

theorem jumps_append (first second : List (RuleSet × Nat)) (parent : ChainId) :
    jumps (first ++ second) parent = jumps first parent ++ jumps second parent := by
  rw [jumps, List.filter_append, List.map_append, jumps, jumps]

theorem mem_jumps {parent : ChainId} {rule : Rule} :
    rule ∈ jumps live parent ↔ ∃ one ∈ live, one.1.chain.parentId = parent ∧ rule = one.1.chain.link one.2 := by
  simp only [jumps, List.mem_map, List.mem_filter, decide_eq_true_eq]
  constructor
  · rintro ⟨one, ⟨hone, hparent⟩, rfl⟩
    exact ⟨one, hone, hparent, rfl⟩
  · rintro ⟨one, hone, hparent, rfl⟩
    exact ⟨one, ⟨hone, hparent⟩, rfl⟩

/-- Clean tables hold no generation. -/
theorem Clean.rules?_generationId (h : Clean chains start) (hchain : chain ∈ chains)
    (hlimit : generation < Generation.limit) : start.rules? (chain.generationId generation) = none := by
  by_contra hsome
  obtain ⟨rules, hrules⟩ := Option.ne_none_iff_exists'.mp hsome
  exact h.names chain hchain _ rules hrules (Generation.mentions_name _ _ hlimit)

theorem link_inj_of_table {other : Chain} {found : Nat} (htable : chain.table = other.table)
    (heq : chain.link generation = other.link found) : chain.generationId generation = other.generationId found := by
  have htarget := congrArg Rule.target? heq
  rw [Chain.link, Chain.link, Generation.target?_jumpTo, Generation.target?_jumpTo] at htarget
  rw [Chain.generationId, Chain.generationId, htable, Option.some.inj htarget]

namespace Shape

/-- The generations that a parent links are the live ones. -/
theorem linked_jumps (hlayout : Layout chains) (hchain : chain ∈ chains) (hused : ∀ one ∈ live, one.1.chain ∈ chains)
    (hlimit : ∀ one ∈ live, one.2 < Generation.limit) :
    Generation.linked chain.stem (jumps live chain.parentId) =
      (live.filter fun one => one.1.chain = chain).map Prod.snd := by
  induction live with
  | nil => rfl
  | cons one rest ih =>
    have hrest := ih (fun other hother => hused other (List.mem_cons_of_mem _ hother)) fun other hother =>
      hlimit other (List.mem_cons_of_mem _ hother)
    have hone := hused one (List.mem_cons_self ..)
    have hlimit := hlimit one (List.mem_cons_self ..)
    rw [jumps_cons]
    by_cases hown : one.1.chain = chain
    · have hjump := hlayout.jumped?_link hchain hone (by rw [hown]) hlimit
      rw [if_pos hown.symm] at hjump
      rw [if_pos (by rw [hown]), Generation.linked, List.filterMap_cons_some hjump, ← Generation.linked, hrest,
        List.filter_cons_of_pos (by simpa using hown), List.map_cons]
    · rw [List.filter_cons_of_neg (by simpa using hown)]
      split
      next hparent =>
        have hjump := hlayout.jumped?_link hchain hone (congrArg ChainId.table hparent).symm hlimit
        rw [if_neg fun heq => hown heq.symm] at hjump
        rw [Generation.linked, List.filterMap_cons_none hjump, ← Generation.linked, hrest]
      next => exact hrest

theorem links_eq (h : Shape chains start live tables) (hlayout : Layout chains) (hclean : Clean chains start)
    (hchain : chain ∈ chains) : links tables chain = (live.filter fun one => one.1.chain = chain).map Prod.snd := by
  obtain ⟨rules, hrules⟩ := hclean.parents chain hchain
  have hplain : Generation.linked chain.stem rules = [] := by
    rw [Generation.linked, List.filterMap_eq_nil_iff]
    intro rule hrule
    exact (hclean.tokens chain hchain _ rules hrules rule hrule).jumped?_eq_none
  rw [links, rulesOf_of_rules? (h.originals _ rules hrules), Generation.linked, List.filterMap_append,
    ← Generation.linked, ← Generation.linked, hplain, List.append_nil,
    linked_jumps hlayout hchain h.used h.limit]

/-- What the parent of a chain links are the chain's live generations, each with its rules. -/
theorem view_eq (h : Shape chains start live tables) (hlayout : Layout chains) (hclean : Clean chains start)
    (hchain : chain ∈ chains) :
    view tables chain = (live.filter fun one => one.1.chain = chain).map fun one => (one.2, some one.1.rules) := by
  rw [view, h.links_eq hlayout hclean hchain, List.map_map]
  refine List.map_congr_left fun one hone => ?_
  obtain ⟨hone, hown⟩ := List.mem_filter.mp hone
  rw [Function.comp_apply, ← of_decide_eq_true hown, h.generations one hone]

/-- Tables of this shape are tidy if no chain has two live generations. -/
theorem tidy (h : Shape chains start live tables) (hlayout : Layout chains) (hclean : Clean chains start)
    (honce : (live.map fun one => one.1.chain).Nodup) : Tidy chains tables := by
  obtain ⟨hstart, -⟩ := hclean.tidy
  refine ⟨?_, hstart.names, ?_, ?_⟩
  · intro chain hchain
    obtain ⟨rules, hrules⟩ := hclean.parents chain hchain
    exact ⟨_, h.originals _ rules hrules⟩
  · intro chain hchain rule hrule
    obtain ⟨rules, hrules⟩ := hclean.parents chain hchain
    rw [rulesOf_of_rules? (h.originals _ rules hrules)] at hrule
    rcases List.mem_append.mp hrule with hjump | hold
    · obtain ⟨one, hone, hparent, rfl⟩ := mem_jumps.mp hjump
      exact .inr ⟨one.1.chain, h.used one hone, hparent, one.2, h.limit one hone, rfl⟩
    · exact .inl fun other hother => hclean.tokens other hother _ rules hrules rule hold
  · intro chain hchain
    rw [h.links_eq hlayout hclean hchain, List.pairwise_map]
    have hapart := (List.pairwise_map.mp honce).sublist (List.filter_sublist (p := fun one => one.1.chain = chain))
    refine hapart.imp_of_mem ?_
    -- two generations of one chain are not to be found
    intro one other hone hother hne
    have honeChain := of_decide_eq_true (List.mem_filter.mp hone).2
    have hotherChain := of_decide_eq_true (List.mem_filter.mp hother).2
    exact absurd (honeChain.trans hotherChain.symm) hne

/-- A chain of the start is not a generation. -/
theorem ne_generationId (h : Shape chains start live tables) (hclean : Clean chains start) {id : ChainId}
    {rules : List Rule} (hrules : start.rules? id = some rules) :
    ∀ one ∈ live, id ≠ one.1.chain.generationId one.2 := by
  rintro one hone rfl
  rw [hclean.rules?_generationId (h.used one hone) (h.limit one hone)] at hrules
  cases hrules

/-- What could be loaded at the start still can. -/
theorem canLoad (h : Shape chains start live tables) {table : String} {rule : Rule}
    (hload : start.canLoad table rule = true) : tables.canLoad table rule = true := by
  rw [Tables.canLoad_iff] at hload ⊢
  intro target htarget
  rcases hload target htarget with hstandard | hchain
  · exact .inl hstandard
  · obtain ⟨rules, hrules⟩ := Tables.hasChain_iff.mp hchain
    exact .inr (Tables.hasChain_iff.mpr ⟨_, h.originals _ rules hrules⟩)

/-- Nothing jumps to a generation that is not live. -/
theorem isReferenced_eq_false (h : Shape chains start live tables) (hclean : Clean chains start)
    (hchain : chain ∈ chains) (hlimit : generation < Generation.limit)
    (hgone : ∀ one ∈ live, one.1.chain.generationId one.2 ≠ chain.generationId generation) :
    tables.isReferenced (chain.generationId generation) = false := by
  rw [Bool.eq_false_iff]
  intro hreferenced
  obtain ⟨name, rules, rule, hrules, hrule, htarget⟩ := Tables.isReferenced_iff.mp hreferenced
  dsimp only [Chain.generationId] at hrules htarget
  cases hstart : start.rules? ⟨chain.table, name⟩ with
  | some original =>
    obtain rfl := Option.some.inj ((h.originals _ original hstart).symm.trans hrules)
    rcases List.mem_append.mp hrule with hjump | hrule
    · obtain ⟨one, hone, hparent, rfl⟩ := mem_jumps.mp hjump
      rw [Chain.link, Generation.target?_jumpTo] at htarget
      have htable : one.1.chain.table = chain.table := congrArg ChainId.table hparent
      apply hgone one hone
      rw [Chain.generationId, Chain.generationId, htable, Option.some.inj htarget]
    · refine hclean.tokens chain hchain _ original hstart rule hrule _ (Generation.mem_tokens_of_targetOf htarget) ?_
      exact Generation.mentions_name _ _ hlimit
  | none =>
    -- then the rule is one of a live generation, which jumps to what was there at the start only
    have hlive : ∃ one ∈ live, (⟨chain.table, name⟩ : ChainId) = one.1.chain.generationId one.2 := by
      by_contra hnone
      rw [h.others _ hstart fun one hone heq => hnone ⟨one, hone, heq⟩] at hrules
      cases hrules
    obtain ⟨one, hone, heq⟩ := hlive
    rw [heq, h.generations one hone] at hrules
    obtain rfl := Option.some.inj hrules
    have htable : chain.table = one.1.chain.table := congrArg ChainId.table heq
    have hload := Tables.canLoad_iff.mp (h.loads one hone rule hrule) _ htarget
    rw [← htable] at hload
    rcases hload with hstandard | hexists
    · exact Generation.name_notMem_standardTargets _ _ hstandard
    · obtain ⟨found, hfound⟩ := Tables.hasChain_iff.mp hexists
      have habsent := hclean.rules?_generationId hchain hlimit
      rw [Chain.generationId, hfound] at habsent
      cases habsent

/-! ## Adding and removing a generation -/

/-- One more generation, linked on top of its parent. -/
theorem cons (h : Shape chains start live tables) (hclean : Clean chains start) (hset : set.chain ∈ chains)
    (hlimit : generation < Generation.limit)
    (hnew : ∀ one ∈ live, one.1.chain.generationId one.2 ≠ set.chain.generationId generation)
    (hloads : ∀ rule ∈ set.rules, start.canLoad set.chain.table rule = true) {linked : Tables}
    (hlinked : ∀ id, linked.rules? id =
      if id = set.chain.parentId then (tables.rules? id).map (set.chain.link generation :: ·)
      else if id = set.chain.generationId generation then some set.rules
      else tables.rules? id) :
    Shape chains start ((set, generation) :: live) linked := by
  have hparent (one : RuleSet × Nat) (hone : one.1.chain ∈ chains) (hfound : one.2 < Generation.limit) :
      one.1.chain.generationId one.2 ≠ set.chain.parentId :=
    (hclean.tidy.1.parentId_ne_generationId hone hset hfound).symm
  refine ⟨?_, ?_, ?_, ?_, ?_, ?_, ?_⟩
  · intro one hone
    rcases List.mem_cons.mp hone with rfl | hone
    · exact hset
    · exact h.used one hone
  · intro one hone
    rcases List.mem_cons.mp hone with rfl | hone
    · exact hlimit
    · exact h.limit one hone
  · intro one hone
    rcases List.mem_cons.mp hone with rfl | hone
    · exact hloads
    · exact h.loads one hone
  · rw [List.map_cons, List.nodup_cons]
    refine ⟨?_, h.distinct⟩
    intro hmem
    obtain ⟨one, hone, heq⟩ := List.mem_map.mp hmem
    exact hnew one hone heq
  · intro one hone
    rcases List.mem_cons.mp hone with rfl | hone
    · rw [hlinked, if_neg (hparent _ hset hlimit), if_pos rfl]
    · rw [hlinked, if_neg (hparent one (h.used one hone) (h.limit one hone)), if_neg (hnew one hone)]
      exact h.generations one hone
  · intro id rules hrules
    have hne : id ≠ set.chain.generationId generation := by
      rintro rfl
      rw [hclean.rules?_generationId hset hlimit] at hrules
      cases hrules
    rw [hlinked, jumps_cons, if_neg hne, h.originals id rules hrules]
    by_cases hid : id = set.chain.parentId
    · rw [if_pos hid, if_pos hid.symm, Option.map_some, List.cons_append]
    · rw [if_neg hid, if_neg fun heq => hid heq.symm]
  · intro id hnone hne
    have hid : id ≠ set.chain.parentId := by
      rintro rfl
      obtain ⟨original, horiginal⟩ := hclean.parents set.chain hset
      rw [horiginal] at hnone
      cases hnone
    rw [hlinked, if_neg hid, if_neg (hne _ (List.mem_cons_self ..))]
    exact h.others id hnone fun one hone => hne one (List.mem_cons_of_mem _ hone)

/-- A generation that is not live can be built, filled and linked. -/
theorem add_link (h : Shape chains start live tables) (hclean : Clean chains start) (hset : set.chain ∈ chains)
    (hlimit : generation < Generation.limit)
    (hnew : ∀ one ∈ live, one.1.chain.generationId one.2 ≠ set.chain.generationId generation)
    (hloads : ∀ rule ∈ set.rules, start.canLoad set.chain.table rule = true) :
    ∃ created filled linked,
      tables.apply ⟨set.chain.generationId generation, .newChain⟩ = .ok ([], created) ∧
      created.apply ⟨set.chain.generationId generation, .bulkAppend set.rules⟩ = .ok ([], filled) ∧
      filled.apply ⟨set.chain.parentId, .bulkInsert 1 [set.chain.link generation]⟩ = .ok ([], linked) ∧
      Shape chains start ((set, generation) :: live) linked := by
  have habsent : tables.rules? (set.chain.generationId generation) = none :=
    h.others _ (hclean.rules?_generationId hset hlimit) fun one hone heq => hnew one hone heq.symm
  have hparent : set.chain.parentId ≠ set.chain.generationId generation :=
    hclean.tidy.1.parentId_ne_generationId hset hset hlimit
  obtain ⟨original, horiginal⟩ := hclean.parents set.chain hset
  have hcreated (id : ChainId) : (tables.addChain (set.chain.generationId generation)).rules? id =
      if id = set.chain.generationId generation then some [] else tables.rules? id :=
    Tables.rules?_addChain habsent
  have hfilled (id : ChainId) : ((tables.addChain (set.chain.generationId generation)).modify
      (set.chain.generationId generation) (· ++ set.rules)).rules? id =
      if id = set.chain.generationId generation then some set.rules else tables.rules? id := by
    rw [Tables.rules?_modify]
    split
    · rw [hcreated, if_pos rfl, Option.map_some, List.nil_append]
    next hne => rw [hcreated, if_neg hne]
  refine ⟨_, _, _, Tables.apply_newChain_eq_ok.mpr ⟨habsent, rfl, rfl⟩,
    Tables.apply_bulkAppend_eq_ok.mpr ⟨?_, ⟨[], by rw [hcreated, if_pos rfl]⟩, rfl, rfl⟩,
    Tables.apply_bulkInsert_eq_ok.mpr ⟨?_, ⟨jumps live set.chain.parentId ++ original, ?_⟩, rfl, rfl⟩,
    h.cons hclean hset hlimit hnew hloads ?_⟩
  · intro rule hrule
    refine Tables.canLoad_mono ?_ (h.canLoad (hloads rule hrule))
    intro id hid
    obtain ⟨rules, hrules⟩ := Tables.hasChain_iff.mp hid
    rw [Tables.hasChain_iff, hcreated]
    split
    · exact ⟨[], rfl⟩
    · exact ⟨rules, hrules⟩
  · intro rule hrule
    rw [List.mem_singleton.mp hrule, Tables.canLoad_iff]
    intro target htarget
    rw [Chain.link, Generation.target?_jumpTo] at htarget
    obtain rfl := Option.some.inj htarget
    exact .inr (Tables.hasChain_iff.mpr ⟨set.rules, by rw [hfilled]; exact if_pos rfl⟩)
  · rw [hfilled, if_neg hparent, h.originals _ _ horiginal]
  · intro id
    rw [Tables.rules?_modify, hfilled, hfilled, if_neg hparent]
    split
    next hid =>
      rw [hid]
      rfl
    next => rfl

/-- Taking a live generation's link out of its parent leaves the links of the other live generations. -/
theorem erase_jumps {newer older : List (RuleSet × Nat)} {old : RuleSet × Nat}
    (hdistinct : ((newer ++ old :: older).map fun one => one.1.chain.generationId one.2).Nodup) (rules : List Rule) :
    (jumps (newer ++ old :: older) old.1.chain.parentId ++ rules).erase (old.1.chain.link old.2) =
      jumps (newer ++ older) old.1.chain.parentId ++ rules := by
  have hnewer : old.1.chain.link old.2 ∉ jumps newer old.1.chain.parentId := by
    intro hmem
    obtain ⟨one, hone, hparent, heq⟩ := mem_jumps.mp hmem
    rw [List.map_append, List.nodup_append] at hdistinct
    refine hdistinct.2.2 _ (List.mem_map_of_mem hone) _ (List.mem_map_of_mem (List.mem_cons_self ..)) ?_
    exact (link_inj_of_table (congrArg ChainId.table hparent).symm heq).symm
  rw [jumps_append, jumps_cons, if_pos rfl, List.append_assoc, List.erase_append_right _ hnewer, List.cons_append,
    List.erase_cons_head, jumps_append, List.append_assoc]

/-- One generation less, and its link with it. -/
theorem drop {newer older : List (RuleSet × Nat)} {old : RuleSet × Nat}
    (h : Shape chains start (newer ++ old :: older) tables) (hclean : Clean chains start)
    (hapart : ∀ one ∈ newer ++ older, one.1.chain.generationId one.2 ≠ old.1.chain.generationId old.2)
    {removed : Tables}
    (hremoved : ∀ id, removed.rules? id =
      if id = old.1.chain.generationId old.2 then none
      else if id = old.1.chain.parentId then (tables.rules? id).map fun rules => rules.erase (old.1.chain.link old.2)
      else tables.rules? id) :
    Shape chains start (newer ++ older) removed := by
  have hold : old ∈ newer ++ old :: older := by simp
  have hsublist : (newer ++ older).Sublist (newer ++ old :: older) :=
    (List.Sublist.refl newer).append (List.sublist_cons_self old older)
  have hsub := hsublist.subset
  have hparent (one : RuleSet × Nat) (hone : one ∈ newer ++ old :: older) :
      one.1.chain.generationId one.2 ≠ old.1.chain.parentId :=
    (hclean.tidy.1.parentId_ne_generationId (h.used one hone) (h.used old hold) (h.limit one hone)).symm
  refine ⟨?_, ?_, ?_, h.distinct.sublist (hsublist.map _), ?_, ?_, ?_⟩
  · exact fun one hone => h.used one (hsub hone)
  · exact fun one hone => h.limit one (hsub hone)
  · exact fun one hone => h.loads one (hsub hone)
  · intro one hone
    rw [hremoved, if_neg (hapart one hone), if_neg (hparent one (hsub hone))]
    exact h.generations one (hsub hone)
  · intro id rules hrules
    rw [hremoved, if_neg (h.ne_generationId hclean hrules old hold), h.originals id rules hrules]
    by_cases hid : id = old.1.chain.parentId
    · rw [if_pos hid, Option.map_some, hid, erase_jumps h.distinct]
    · rw [if_neg hid, jumps_append, jumps_cons, if_neg fun heq => hid heq.symm, ← jumps_append]
  · intro id hnone hne
    rw [hremoved]
    split
    · rfl
    next hidOld =>
      have hid : id ≠ old.1.chain.parentId := by
        rintro rfl
        obtain ⟨original, horiginal⟩ := hclean.parents _ (h.used old hold)
        rw [horiginal] at hnone
        cases hnone
      rw [if_neg hid]
      refine h.others id hnone ?_
      intro one hone
      rcases List.mem_append.mp hone with hone | hone
      · exact hne one (List.mem_append_left _ hone)
      · rcases List.mem_cons.mp hone with rfl | hone
        · exact hidOld
        · exact hne one (List.mem_append_right _ hone)

/-- A live generation can be taken out of its parent, cleared and deleted. -/
theorem remove {newer older : List (RuleSet × Nat)} {old : RuleSet × Nat}
    (h : Shape chains start (newer ++ old :: older) tables) (hclean : Clean chains start) :
    ∃ unlinked cleared removed,
      tables.apply ⟨old.1.chain.parentId, .delete (old.1.chain.link old.2)⟩ = .ok ([], unlinked) ∧
      unlinked.apply ⟨old.1.chain.generationId old.2, .clearChain⟩ = .ok ([], cleared) ∧
      cleared.apply ⟨old.1.chain.generationId old.2, .deleteChain⟩ = .ok ([], removed) ∧
      Shape chains start (newer ++ older) removed := by
  have hold : old ∈ newer ++ old :: older := by simp
  have hparent : old.1.chain.generationId old.2 ≠ old.1.chain.parentId :=
    (hclean.tidy.1.parentId_ne_generationId (h.used old hold) (h.used old hold) (h.limit old hold)).symm
  have hapart : ∀ one ∈ newer ++ older, one.1.chain.generationId one.2 ≠ old.1.chain.generationId old.2 := by
    intro one hone heq
    have hdistinct := h.distinct
    rw [List.map_append, List.map_cons, List.nodup_middle, List.nodup_cons, ← List.map_append] at hdistinct
    exact hdistinct.1 (heq ▸ List.mem_map_of_mem hone)
  obtain ⟨original, horiginal⟩ := hclean.parents _ (h.used old hold)
  have hlinked : old.1.chain.link old.2 ∈ jumps (newer ++ old :: older) old.1.chain.parentId ++ original :=
    List.mem_append_left _ (mem_jumps.mpr ⟨old, hold, rfl, rfl⟩)
  have hunlinked (id : ChainId) : (tables.modify old.1.chain.parentId fun rules =>
      rules.erase (old.1.chain.link old.2)).rules? id =
      if id = old.1.chain.parentId then (tables.rules? id).map fun rules => rules.erase (old.1.chain.link old.2)
      else tables.rules? id := by
    rw [Tables.rules?_modify]
    split
    next hid => rw [hid]
    next => rfl
  have hcontent : (tables.modify old.1.chain.parentId fun rules =>
      rules.erase (old.1.chain.link old.2)).rules? (old.1.chain.generationId old.2) = some old.1.rules := by
    rw [hunlinked, if_neg hparent, h.generations old hold]
  have hshape : Shape chains start (newer ++ older) ((tables.modify old.1.chain.parentId fun rules =>
      rules.erase (old.1.chain.link old.2)).removeChain (old.1.chain.generationId old.2)) := by
    refine h.drop hclean hapart ?_
    intro id
    rw [Tables.rules?_removeChain, hunlinked]
  have hfree := hshape.isReferenced_eq_false hclean (h.used old hold) (h.limit old hold) hapart
  refine ⟨_, _, _, Tables.apply_delete_eq_ok.mpr ⟨⟨_, h.originals _ _ horiginal, hlinked⟩, rfl, rfl⟩,
    Tables.apply_clearChain_eq_ok.mpr ⟨⟨_, hcontent⟩, rfl, rfl⟩,
    Tables.apply_deleteChain_eq_ok.mpr ⟨?_, Tables.isReferenced_clear hfree rfl, rfl, rfl⟩, ?_⟩
  · rw [Tables.rules?_modify, if_pos rfl, hcontent, Option.map_some]
  · rw [Tables.removeChain_modify]
    exact hshape

end Shape

end OverlayHost.Enforcer
