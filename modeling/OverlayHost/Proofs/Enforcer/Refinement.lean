import OverlayHost.Cycle
import OverlayHost.Proofs.Enforcer.Shape
import OverlayHost.Proofs.Filter.Execution

/-!
# A map from chains to rules

Putting rule sets into force, one after the other and without failures, is recording them in a map from chains to rule
sets. Whatever the clocks show, the filter holds at the end what it held at the start and, for each chain in the map,
one generation with just the chain's rules, linked above the parent's own rules, the last one put into force on top.
-/

set_option autoImplicit false

namespace OverlayHost.Enforcer

open OverlayHost.Filter (Tables ChainId Memory Program)
open OverlayHost.Cycle (Applied)

variable {chains : List Chain} {set : RuleSet} {start tables : Tables} {live : List (RuleSet × Nat)}
  {memory : Memory} {steps : List (RuleSet × Nat)} {now : Nat}

/-! ## One rule set -/

/-- The live generations besides those of one chain. -/
def besides (chain : Chain) (live : List (RuleSet × Nat)) : List (RuleSet × Nat) :=
  live.filter fun one => one.1.chain ≠ chain

/-- A chain that has at most one live generation has none, or the live generations are that one and those of other
chains around it. -/
theorem none_or_split (chain : Chain) (honce : (live.map fun one => one.1.chain).Nodup) :
    ((live.filter fun one => one.1.chain = chain) = [] ∧ besides chain live = live) ∨
      ∃ newer old older, live = newer ++ old :: older ∧ old.1.chain = chain ∧
        (live.filter fun one => one.1.chain = chain) = [old] ∧ besides chain live = newer ++ older := by
  by_cases hmem : ∃ one ∈ live, one.1.chain = chain
  · obtain ⟨old, hold, rfl⟩ := hmem
    obtain ⟨newer, older, rfl⟩ := List.append_of_mem hold
    rw [List.map_append, List.map_cons, List.nodup_middle, List.nodup_cons, ← List.map_append] at honce
    have hne (one : RuleSet × Nat) (hone : one ∈ newer ++ older) : one.1.chain ≠ old.1.chain :=
      fun heq => honce.1 (heq ▸ List.mem_map_of_mem hone)
    have hnewer : ∀ one ∈ newer, one.1.chain ≠ old.1.chain := fun one hone => hne one (List.mem_append_left _ hone)
    have holder : ∀ one ∈ older, one.1.chain ≠ old.1.chain := fun one hone => hne one (List.mem_append_right _ hone)
    refine .inr ⟨newer, old, older, rfl, rfl, ?_, ?_⟩
    · rw [List.filter_append, List.filter_cons_of_pos (by simp), List.filter_eq_nil_iff.mpr (by simpa using hnewer),
        List.filter_eq_nil_iff.mpr (by simpa using holder), List.nil_append]
    · rw [besides, List.filter_append, List.filter_cons_of_neg (by simp),
        List.filter_eq_self.mpr (by simpa using hnewer), List.filter_eq_self.mpr (by simpa using holder)]
  · have hnone : ∀ one ∈ live, one.1.chain ≠ chain := fun one hone heq => hmem ⟨one, hone, heq⟩
    refine .inl ⟨List.filter_eq_nil_iff.mpr (by simpa using hnone), ?_⟩
    rw [besides, List.filter_eq_self]
    simpa using hnone

/-- Without failures a rule set is put into force by a fresh generation in place of the chain's live one. -/
theorem enforce_yields (h : Shape chains start live tables) (hlayout : Layout chains) (hclean : Clean chains start)
    (honce : (live.map fun one => one.1.chain).Nodup) (hset : set.chain ∈ chains)
    (hloads : ∀ rule ∈ set.rules, start.canLoad set.chain.table rule = true)
    (hlimit : nextIn tables set.chain now < Generation.limit) :
    ∃ after, (enforce set).Yields now tables (.ok ()) after ∧
      Shape chains start ((set, nextIn tables set.chain now) :: besides set.chain live) after := by
  obtain ⟨original, horiginal⟩ := hclean.parents _ hset
  have hrules := h.originals _ original horiginal
  have hfound : foundIn tables set.chain = ((live.filter fun one => one.1.chain = set.chain).map Prod.snd).reverse := by
    rw [(h.tidy hlayout hclean honce).foundIn_eq hlayout hset, h.links_eq hlayout hclean hset]
  have hlisted : Generation.inListing set.chain.stem
      (Tables.listing set.chain.parent (jumps live set.chain.parentId ++ original)) = foundIn tables set.chain := by
    rw [foundIn, rulesOf_of_rules? hrules]
  -- the fresh generation is newer than the chain's live one
  have hnew : ∀ one ∈ live,
      one.1.chain.generationId one.2 ≠ set.chain.generationId (nextIn tables set.chain now) := by
    intro one hone heq
    obtain ⟨hown, hsame⟩ := hlayout.generationId_inj (h.used one hone) hset (h.limit one hone) hlimit heq
    have hmem : one.2 ∈ foundIn tables set.chain := by
      rw [hfound, List.mem_reverse]
      exact List.mem_map_of_mem (List.mem_filter.mpr ⟨hone, by simpa using hown⟩)
    have hlt := Generation.lt_next (Generation.pairwise_inListing _ _) now one.2 hmem
    rw [← foundIn, ← nextIn, ← hsame] at hlt
    exact Nat.lt_irrefl _ hlt
  obtain ⟨created, filled, linked, hcreate, hfill, hlink, hshape⟩ :=
    h.add_link hclean hset hlimit hnew hloads
  have hremoved : ∃ after, (removeAll set.chain (foundIn tables set.chain)).Yields now linked (.ok ()) after ∧
      Shape chains start ((set, nextIn tables set.chain now) :: besides set.chain live) after := by
    rcases none_or_split set.chain honce with ⟨hnone, hrest⟩ | ⟨newer, old, older, rfl, hown, hsingle, hrest⟩
    · rw [hfound, hnone, hrest]
      exact ⟨linked, Program.yields_done _ _ _, hshape⟩
    · rw [← List.cons_append] at hshape
      obtain ⟨unlinked, cleared, removed, hunlink, hclear, hremove, hshape⟩ := hshape.remove hclean
      rw [hown] at hunlink hclear hremove
      rw [hfound, hsingle, hrest]
      refine ⟨removed, ?_, hshape⟩
      exact Program.yields_call hunlink (Program.yields_call hclear (Program.yields_call hremove
        (Program.yields_done _ _ _)))
  obtain ⟨after, hyields, hshape⟩ := hremoved
  refine ⟨after, ?_, hshape⟩
  rw [enforce_eq]
  refine Program.yields_call (Tables.apply_list_eq_ok.mpr ⟨_, hrules, rfl, rfl⟩) (Program.yields_clock ?_)
  dsimp only [Chain.parentId] at hlisted ⊢
  rw [hlisted]
  exact Program.yields_call hcreate (Program.yields_call hfill (Program.yields_call hlink hyields))

/-! ## Many rule sets -/

/-- Puts rule sets into force one after the other, each when the clock shows a time. -/
def enforceAll : List (RuleSet × Nat) → Memory → List (Except EnforceError Unit) × Memory
  | [], memory => ([], memory)
  | (set, now) :: rest, memory =>
    let (result, after) := (enforce set).run (Memory.host now) memory
    let (results, last) := enforceAll rest after
    (result :: results, last)

/-- Whether all generations to be built have a number of ten digits. -/
def Fits : List (RuleSet × Nat) → Memory → Prop
  | [], _ => True
  | (set, now) :: rest, memory =>
    nextIn memory.tables set.chain now < Generation.limit ∧ Fits rest ((enforce set).run (Memory.host now) memory).2

/-- Recording a rule set replaces what is recorded for its chain. -/
theorem map_fst_cons_besides (set : RuleSet) (generation : Nat) (live : List (RuleSet × Nat)) :
    ((set, generation) :: besides set.chain live).map Prod.fst = (Applied.record ⟨live.map Prod.fst⟩ set).sets := by
  simp [besides, Applied.record, List.filter_map, Function.comp_def]

/-- A chain that gets a generation in place of the one it has still has one. -/
theorem nodup_cons_besides (set : RuleSet) (generation : Nat) (honce : (live.map fun one => one.1.chain).Nodup) :
    (((set, generation) :: besides set.chain live).map fun one => one.1.chain).Nodup := by
  rw [List.map_cons, List.nodup_cons]
  refine ⟨?_, honce.sublist (List.filter_sublist.map _)⟩
  intro hmem
  obtain ⟨one, hone, heq⟩ := List.mem_map.mp hmem
  exact of_decide_eq_true (List.mem_filter.mp hone).2 heq

/-- From a shape on, putting rule sets into force succeeds and leads to the shape with the rule sets recorded. -/
theorem enforceAll_shape (hlayout : Layout chains) (hclean : Clean chains start)
    (h : Shape chains start live memory.tables) (honce : (live.map fun one => one.1.chain).Nodup)
    (hpending : memory.pending = [])
    (hsteps : ∀ step ∈ steps, step.1.chain ∈ chains ∧
      ∀ rule ∈ step.1.rules, start.canLoad step.1.chain.table rule = true)
    (hfits : Fits steps memory) :
    (∀ result ∈ (enforceAll steps memory).1, result = .ok ()) ∧
      ∃ last, last.map Prod.fst = ((steps.map Prod.fst).foldl Applied.record ⟨live.map Prod.fst⟩).sets ∧
        (last.map fun one => one.1.chain).Nodup ∧ Shape chains start last (enforceAll steps memory).2.tables := by
  induction steps generalizing memory live with
  | nil => exact ⟨by simp [enforceAll], live, rfl, honce, h⟩
  | cons step rest ih =>
    obtain ⟨set, now⟩ := step
    obtain ⟨hlimit, hfits⟩ := hfits
    obtain ⟨hset, hloads⟩ := hsteps (set, now) (List.mem_cons_self ..)
    obtain ⟨after, hyields, hshape⟩ := enforce_yields h hlayout hclean honce hset hloads hlimit
    obtain ⟨hresult, htables, hpending⟩ := hyields memory rfl hpending
    rw [← htables] at hshape
    obtain ⟨hresults, last, hlast, hnodup, hshape⟩ :=
      ih hshape (nodup_cons_besides set _ honce) hpending
        (fun other hother => hsteps other (List.mem_cons_of_mem _ hother)) hfits
    refine ⟨?_, last, ?_, hnodup, hshape⟩
    · intro result hmem
      rcases List.mem_cons.mp hmem with rfl | hmem
      · exact hresult
      · exact hresults result hmem
    · rw [hlast, map_fst_cons_besides, List.map_cons, List.foldl_cons]

/-- What a filter holds, if it held some tables at the start and rule sets were put into force since. -/
structure Refined (start : Tables) (live : List (RuleSet × Nat)) (after : Tables) : Prop where
  digits : ∀ one ∈ live, one.2 < Generation.limit
  /-- A generation of each chain holds the chain's rules. -/
  holds : ∀ one ∈ live, after.rules? (one.1.chain.generationId one.2) = some one.1.rules
  /-- It is the only one of that chain in the table. -/
  single : ∀ one ∈ live, ∀ id, id.table = one.1.chain.table →
    (Generation.ofName? one.1.chain.stem id.name).isSome = true → (after.rules? id).isSome = true →
      id = one.1.chain.generationId one.2
  /-- Chains of the start hold what they held, under the links of the generations whose parent they are. -/
  originals : ∀ id rules, start.rules? id = some rules → after.rules? id = some (jumps live id ++ rules)
  /-- There are no other chains. -/
  others : ∀ id, start.rules? id = none → (∀ one ∈ live, id ≠ one.1.chain.generationId one.2) →
    after.rules? id = none

theorem Shape.refined (h : Shape chains start live tables) (hlayout : Layout chains) (hclean : Clean chains start)
    (honce : (live.map fun one => one.1.chain).Nodup) : Refined start live tables := by
  refine ⟨h.limit, h.generations, ?_, h.originals, h.others⟩
  intro one hone id htable hname hexists
  obtain ⟨generation, hgeneration⟩ := Option.isSome_iff_exists.mp hname
  have hstart : start.rules? id = none := by
    by_contra hsome
    obtain ⟨rules, hrules⟩ := Option.ne_none_iff_exists'.mp hsome
    exact hclean.names _ (h.used one hone) id rules hrules (Generation.mentions_of_ofName? hgeneration)
  have hlive : ∃ other ∈ live, id = other.1.chain.generationId other.2 := by
    by_contra hnone
    rw [h.others id hstart fun other hother heq => hnone ⟨other, hother, heq⟩] at hexists
    cases hexists
  obtain ⟨other, hother, rfl⟩ := hlive
  have hstem := Generation.stem_eq_of_ofName? (h.limit other hother) hgeneration
  have hchain := hlayout.distinct _ (h.used one hone) _ (h.used other hother) htable.symm hstem
  rw [List.inj_on_of_nodup_map honce hone hother hchain]

/-- Putting rule sets into force without failures succeeds each time, and refines recording them. -/
theorem enforceAll_refines_record (hlayout : Layout chains) (hclean : Clean chains memory.tables)
    (hpending : memory.pending = [])
    (hsteps : ∀ step ∈ steps, step.1.chain ∈ chains ∧
      ∀ rule ∈ step.1.rules, memory.tables.canLoad step.1.chain.table rule = true)
    (hfits : Fits steps memory) :
    (∀ result ∈ (enforceAll steps memory).1, result = .ok ()) ∧
      ∃ live, live.map Prod.fst = ((steps.map Prod.fst).foldl Applied.record Applied.empty).sets ∧
        Refined memory.tables live (enforceAll steps memory).2.tables := by
  obtain ⟨hresults, live, hlive, honce, hshape⟩ := enforceAll_shape hlayout hclean (shape_nil chains memory.tables)
    List.nodup_nil hpending hsteps hfits
  exact ⟨hresults, live, hlive, hshape.refined hlayout hclean honce⟩

/-- Two chains with one parent, where one stem starts with the other, and a clock that stands still and goes back. -/
theorem enforceAll_two_chains :
    Layout [⟨"filter", "FORWARD", "p"⟩, ⟨"filter", "FORWARD", "p1"⟩] ∧
      Clean [⟨"filter", "FORWARD", "p"⟩, ⟨"filter", "FORWARD", "p1"⟩] Memory.initial.tables ∧
      (∀ result ∈ (enforceAll
          [(⟨⟨"filter", "FORWARD", "p"⟩, [Rule.acceptLocal]⟩, 1700000000),
            (⟨⟨"filter", "FORWARD", "p1"⟩, [Rule.acceptRemote 1]⟩, 1700000000),
            (⟨⟨"filter", "FORWARD", "p"⟩, []⟩, 1600000000)] Memory.initial).1, result = .ok ()) ∧
      ∃ live, live.map Prod.fst =
          [⟨⟨"filter", "FORWARD", "p"⟩, []⟩, ⟨⟨"filter", "FORWARD", "p1"⟩, [Rule.acceptRemote 1]⟩] ∧
        Refined Tables.initial live (enforceAll
          [(⟨⟨"filter", "FORWARD", "p"⟩, [Rule.acceptLocal]⟩, 1700000000),
            (⟨⟨"filter", "FORWARD", "p1"⟩, [Rule.acceptRemote 1]⟩, 1700000000),
            (⟨⟨"filter", "FORWARD", "p"⟩, []⟩, 1600000000)] Memory.initial).2.tables := by
  have hlayout : Layout [⟨"filter", "FORWARD", "p"⟩, ⟨"filter", "FORWARD", "p1"⟩] :=
    ⟨by decide, by decide⟩
  have hclean : Clean [⟨"filter", "FORWARD", "p"⟩, ⟨"filter", "FORWARD", "p1"⟩] Tables.initial :=
    clean_initial (by decide)
  have hrecorded : ([⟨⟨"filter", "FORWARD", "p"⟩, []⟩, ⟨⟨"filter", "FORWARD", "p1"⟩, [Rule.acceptRemote 1]⟩] :
      List RuleSet) =
      ([⟨⟨"filter", "FORWARD", "p"⟩, [Rule.acceptLocal]⟩, ⟨⟨"filter", "FORWARD", "p1"⟩, [Rule.acceptRemote 1]⟩,
        ⟨⟨"filter", "FORWARD", "p"⟩, []⟩].foldl Applied.record Applied.empty).sets := by
    decide
  rw [hrecorded]
  exact ⟨hlayout, hclean, enforceAll_refines_record hlayout hclean rfl (by decide)
    ⟨by decide, by decide, by decide, trivial⟩⟩

end OverlayHost.Enforcer
