import OverlayHost.Proofs.Enforcer.Links

/-!
# Parent chains that link generations

What the parent chains of a group of chains hold while the group is managed: rules that mention no generation, and
links of the group's own generations, for each chain the newest first. It says what each change that putting a rule set
into force makes to the tables does to the generations that each parent links: a change to a generation that is not
linked does nothing, a link is put on top, and a link that is taken out is the only one to go.
-/

set_option autoImplicit false

namespace OverlayHost.Enforcer

open OverlayHost.Filter (Tables ChainId)

variable {chains : List Chain} {chain other : Chain} {tables after : Tables} {generation found : Nat}

/-! ## Groups of chains -/

/-- Chains whose generations can be told apart by their names. -/
structure Layout (chains : List Chain) : Prop where
  blankFree : ∀ chain ∈ chains, Generation.BlankFree chain.stem
  distinct : ∀ chain ∈ chains, ∀ other ∈ chains,
    chain.table = other.table → chain.stem = other.stem → chain = other

/-- Tables that hold the parents of the chains and nothing that mentions a generation of theirs. -/
structure Clean (chains : List Chain) (tables : Tables) : Prop where
  parents : ∀ chain ∈ chains, ∃ rules, tables.rules? chain.parentId = some rules
  names : ∀ chain ∈ chains, ∀ id rules, tables.rules? id = some rules → ¬ Generation.Mentions chain.stem id.name
  tokens : ∀ chain ∈ chains, ∀ id rules, tables.rules? id = some rules →
    ∀ rule ∈ rules, Generation.Plain chain.stem rule

/-- A new filter is clean for all chains whose parents are builtin chains. -/
theorem clean_initial
    (h : ∀ chain ∈ chains, chain.table = "filter" ∧ chain.parent ∈ Tables.builtinChains) :
    Clean chains Tables.initial := by
  have hentry {id : ChainId} {rules : List Rule} (hrules : Tables.initial.rules? id = some rules) :
      id.name ∈ Tables.builtinChains ∧ rules = [] := by
    obtain ⟨name, hname, heq⟩ := List.mem_map.mp (Tables.mem_entries_of_rules? hrules)
    obtain ⟨rfl, rfl⟩ := Prod.mk.inj heq
    exact ⟨hname, rfl⟩
  refine ⟨?_, ?_, ?_⟩
  · intro chain hchain
    obtain ⟨htable, hparent⟩ := h chain hchain
    refine ⟨[], Tables.rules?_eq_some_iff.mpr (List.mem_map.mpr ⟨chain.parent, hparent, ?_⟩)⟩
    rw [Chain.parentId, htable]
  · intro chain _ id rules hrules hmention
    have hshort : ∀ name ∈ Tables.builtinChains, name.toList.length < 10 := by decide
    have hlength := hshort _ (hentry hrules).1
    have hle := hmention.length_le
    omega
  · intro chain _ id rules hrules rule hrule
    rw [(hentry hrules).2] at hrule
    cases hrule

/-- A link of one of the chains is a jump to one of its generations only. -/
theorem Layout.jumped?_link (h : Layout chains) (hchain : chain ∈ chains) (hother : other ∈ chains)
    (htable : chain.table = other.table) (hlimit : generation < Generation.limit) :
    Generation.jumped? chain.stem (other.link generation) = if chain = other then some generation else none := by
  rw [Chain.link, Generation.jumped?_jumpTo]
  split
  next heq => rw [heq, Generation.ofName?_name _ _ hlimit]
  next hne =>
    by_contra hsome
    obtain ⟨found, hfound⟩ := Option.ne_none_iff_exists'.mp hsome
    exact hne (h.distinct chain hchain other hother htable (Generation.stem_eq_of_ofName? hlimit hfound))

theorem Layout.generationId_inj (h : Layout chains) (hchain : chain ∈ chains) (hother : other ∈ chains)
    (hlimit : generation < Generation.limit) (hfound : found < Generation.limit)
    (heq : chain.generationId generation = other.generationId found) : chain = other ∧ generation = found := by
  obtain ⟨htable, hname⟩ := ChainId.mk.inj heq
  obtain ⟨hstem, hgeneration⟩ := Generation.name_injective hlimit hfound hname
  exact ⟨h.distinct chain hchain other hother htable hstem, hgeneration⟩

/-! ## Tidy parents -/

/-- A rule that the parent of managed chains may hold: one that mentions no generation, or a link of a chain with that
parent. -/
def Known (chains : List Chain) (parent : ChainId) (rule : Rule) : Prop :=
  (∀ chain ∈ chains, Generation.Plain chain.stem rule) ∨
    ∃ chain ∈ chains, chain.parentId = parent ∧ ∃ generation < Generation.limit, rule = chain.link generation

/-- Tables whose parents link the chains' generations, the newest first, and mention none otherwise. -/
structure Tidy (chains : List Chain) (tables : Tables) : Prop where
  parents : ∀ chain ∈ chains, ∃ rules, tables.rules? chain.parentId = some rules
  names : ∀ chain ∈ chains, ∀ other ∈ chains, ¬ Generation.Mentions chain.stem other.parent
  known : ∀ chain ∈ chains, ∀ rule ∈ rulesOf tables chain.parentId, Known chains chain.parentId rule
  descending : ∀ chain ∈ chains, (links tables chain).Pairwise (· > ·)

/-- What a parent holds jumps to a generation only if it is that generation's link. -/
theorem Known.eq_link {rule : Rule} (h : Known chains chain.parentId rule) (hlayout : Layout chains)
    (hchain : chain ∈ chains) (hjump : Generation.jumped? chain.stem rule = some generation) :
    generation < Generation.limit ∧ rule = chain.link generation := by
  rcases h with hplain | ⟨other, hother, hparent, found, hlimit, rfl⟩
  · rw [(hplain chain hchain).jumped?_eq_none] at hjump
    cases hjump
  · have htable : chain.table = other.table := (congrArg ChainId.table hparent).symm
    rw [hlayout.jumped?_link hchain hother htable hlimit] at hjump
    split at hjump
    next heq =>
      obtain rfl : found = generation := Option.some.inj hjump
      exact ⟨hlimit, by rw [heq]⟩
    next => cases hjump

theorem Tidy.mem_links_iff (h : Tidy chains tables) (hlayout : Layout chains) (hchain : chain ∈ chains) :
    generation ∈ links tables chain ↔
      generation < Generation.limit ∧ chain.link generation ∈ rulesOf tables chain.parentId := by
  rw [links, Generation.linked, List.mem_filterMap]
  constructor
  · rintro ⟨rule, hrule, hjump⟩
    obtain ⟨hlimit, rfl⟩ := (h.known chain hchain rule hrule).eq_link hlayout hchain hjump
    exact ⟨hlimit, hrule⟩
  · rintro ⟨hlimit, hrule⟩
    exact ⟨_, hrule, by rw [hlayout.jumped?_link hchain hchain rfl hlimit, if_pos rfl]⟩

theorem Tidy.parentId_ne_generationId (h : Tidy chains tables) (hchain : chain ∈ chains) (hother : other ∈ chains)
    (hlimit : generation < Generation.limit) : other.parentId ≠ chain.generationId generation := by
  intro heq
  apply h.names chain hchain other hother
  have hname : other.parent = Generation.name chain.stem generation := congrArg ChainId.name heq
  rw [hname]
  exact Generation.mentions_name _ _ hlimit

/-- The listing of a parent names the generations that it links, the oldest first. -/
theorem Tidy.foundIn_eq (h : Tidy chains tables) (hlayout : Layout chains) (hchain : chain ∈ chains) :
    foundIn tables chain = (links tables chain).reverse := by
  have hstem := hlayout.blankFree chain hchain
  have hparent := h.names chain hchain chain hchain
  refine Generation.inListing_eq_reverse_linked hstem hparent ?_ (h.descending chain hchain)
  intro rule hrule
  rcases h.known chain hchain rule hrule with hplain | ⟨other, hother, -, found, hlimit, rfl⟩
  · rw [(hplain chain hchain).inLine?_eq_none hstem hparent, (hplain chain hchain).jumped?_eq_none]
  · rw [Chain.link, Generation.inLine?_jumpTo_name hstem (hlayout.blankFree other hother),
      Generation.inWords?_eq_none hparent, Option.none_or, Generation.jumped?_jumpTo]

/-- Clean tables are tidy, and no parent links anything. -/
theorem Clean.tidy (h : Clean chains tables) :
    Tidy chains tables ∧ ∀ chain ∈ chains, links tables chain = [] := by
  have hplain (chain : Chain) (hchain : chain ∈ chains) (other : Chain) (hother : other ∈ chains) :
      ∀ rule ∈ rulesOf tables other.parentId, Generation.Plain chain.stem rule := by
    obtain ⟨rules, hrules⟩ := h.parents other hother
    rw [rulesOf_of_rules? hrules]
    exact h.tokens chain hchain _ rules hrules
  have hlinks (chain : Chain) (hchain : chain ∈ chains) : links tables chain = [] := by
    rw [links, Generation.linked, List.filterMap_eq_nil_iff]
    intro rule hrule
    exact (hplain chain hchain chain hchain rule hrule).jumped?_eq_none
  refine ⟨⟨h.parents, ?_, ?_, ?_⟩, hlinks⟩
  · intro chain hchain other hother
    obtain ⟨rules, hrules⟩ := h.parents other hother
    exact h.names chain hchain _ rules hrules
  · intro chain hchain rule hrule
    exact .inl fun other hother => hplain other hother chain hchain rule hrule
  · intro chain hchain
    rw [hlinks chain hchain]
    exact List.Pairwise.nil

/-! ## Changes to a generation -/

/-- What happens to a generation changes no parent. -/
theorem Tidy.of_sameBut (h : Tidy chains tables) (hchain : chain ∈ chains) (hlimit : generation < Generation.limit)
    (hsame : tables.SameBut (chain.generationId generation) after) :
    Tidy chains after ∧ ∀ other ∈ chains, links after other = links tables other := by
  have hparent (other : Chain) (hother : other ∈ chains) :
      after.rules? other.parentId = tables.rules? other.parentId :=
    hsame _ (h.parentId_ne_generationId hchain hother hlimit)
  have hrules (other : Chain) (hother : other ∈ chains) :
      rulesOf after other.parentId = rulesOf tables other.parentId := by
    rw [rulesOf, rulesOf, hparent other hother]
  have hlinks (other : Chain) (hother : other ∈ chains) : links after other = links tables other := by
    rw [links, links, hrules other hother]
  refine ⟨⟨?_, h.names, ?_, ?_⟩, hlinks⟩
  · intro other hother
    rw [hparent other hother]
    exact h.parents other hother
  · intro other hother
    rw [hrules other hother]
    exact h.known other hother
  · intro other hother
    rw [hlinks other hother]
    exact h.descending other hother

/-- What happens to a generation that is not linked cannot be seen from any parent. -/
theorem Tidy.view_of_sameBut (h : Tidy chains tables) (hlayout : Layout chains) (hchain : chain ∈ chains)
    (hlimit : generation < Generation.limit) (hunlinked : generation ∉ links tables chain)
    (hsame : tables.SameBut (chain.generationId generation) after) :
    ∀ other ∈ chains, view after other = view tables other := by
  intro other hother
  obtain ⟨-, hlinks⟩ := h.of_sameBut hchain hlimit hsame
  rw [view, view, hlinks other hother]
  refine List.map_congr_left fun found hfound => ?_
  have hfoundLimit := ((h.mem_links_iff hlayout hother).mp hfound).1
  rw [hsame]
  intro heq
  obtain ⟨rfl, rfl⟩ := hlayout.generationId_inj hother hchain hfoundLimit hlimit heq
  exact hunlinked hfound

/-! ## Changes to a parent -/

theorem rulesOf_modify {id second : ChainId} {rules : List Rule} (h : tables.rules? id = some rules)
    (change : List Rule → List Rule) :
    rulesOf (tables.modify id change) second = if second = id then change rules else rulesOf tables second := by
  rw [rulesOf, Tables.rules?_modify]
  split
  · rw [h, Option.map_some, Option.getD_some]
  · rfl

/-- A parent whose rules change so that it links other generations of one chain, and the same of all others, shows
those generations of that chain, and the same of all others. -/
theorem Tidy.relink (h : Tidy chains tables) (hlayout : Layout chains) (hchain : chain ∈ chains) {rules : List Rule}
    (hrules : tables.rules? chain.parentId = some rules) (change : List Rule → List Rule) {shown : List Nat}
    (hknown : ∀ rule ∈ change rules, Known chains chain.parentId rule)
    (hown : Generation.linked chain.stem (change rules) = shown) (hsorted : shown.Pairwise (· > ·))
    (hothers : ∀ other ∈ chains, other ≠ chain → other.parentId = chain.parentId →
      Generation.linked other.stem (change rules) = Generation.linked other.stem rules) :
    Tidy chains (tables.modify chain.parentId change) ∧
      (view (tables.modify chain.parentId change) chain = shown.map fun generation =>
        (generation, tables.rules? (chain.generationId generation))) ∧
      ∀ other ∈ chains, other ≠ chain → view (tables.modify chain.parentId change) other = view tables other := by
  have hlinksOwn : links (tables.modify chain.parentId change) chain = shown := by
    rw [links, rulesOf_modify hrules, if_pos rfl, hown]
  have hlinks (other : Chain) (hother : other ∈ chains) (hne : other ≠ chain) :
      links (tables.modify chain.parentId change) other = links tables other := by
    rw [links, rulesOf_modify hrules]
    split
    next hparent => rw [hothers other hother hne hparent, links, hparent, rulesOf_of_rules? hrules]
    next => rfl
  have htidy : Tidy chains (tables.modify chain.parentId change) := by
    refine ⟨?_, h.names, ?_, ?_⟩
    · intro other hother
      rw [Tables.rules?_modify]
      split
      · exact ⟨change rules, by rw [hrules, Option.map_some]⟩
      · exact h.parents other hother
    · intro other hother rule hrule
      rw [rulesOf_modify hrules] at hrule
      split at hrule
      next heq =>
        rw [heq]
        exact hknown rule hrule
      next => exact h.known other hother rule hrule
    · intro other hother
      by_cases heq : other = chain
      · rw [heq, hlinksOwn]
        exact hsorted
      · rw [hlinks other hother heq]
        exact h.descending other hother
  have hview (other : Chain) (hother : other ∈ chains) :
      view (tables.modify chain.parentId change) other =
        (links (tables.modify chain.parentId change) other).map fun generation =>
          (generation, tables.rules? (other.generationId generation)) := by
    refine List.map_congr_left fun generation hgeneration => ?_
    have hlimit := ((htidy.mem_links_iff hlayout hother).mp hgeneration).1
    rw [Tables.rules?_modify, if_neg (h.parentId_ne_generationId hother hchain hlimit).symm]
  refine ⟨htidy, ?_, ?_⟩
  · rw [hview chain hchain, hlinksOwn]
  · intro other hother hne
    rw [hview other hother, hlinks other hother hne, view]

/-- A link on top of a parent is seen on top of its chain's generations, if it is newer than all of them, and by no
other chain. -/
theorem Tidy.insert_link (h : Tidy chains tables) (hlayout : Layout chains) (hchain : chain ∈ chains)
    (hlimit : generation < Generation.limit) (hnewer : ∀ old ∈ links tables chain, old < generation)
    (hafter : after = tables.modify chain.parentId (Tables.insertAt 1 [chain.link generation])) :
    Tidy chains after ∧
      view after chain = (generation, tables.rules? (chain.generationId generation)) :: view tables chain ∧
      ∀ other ∈ chains, other ≠ chain → view after other = view tables other := by
  obtain ⟨rules, hrules⟩ := h.parents chain hchain
  have hinsert : Tables.insertAt 1 [chain.link generation] rules = chain.link generation :: rules := by
    simp [Tables.insertAt]
  rw [hafter]
  refine h.relink hlayout hchain hrules (Tables.insertAt 1 [chain.link generation]) ?_ ?_
    (List.pairwise_cons.mpr ⟨hnewer, h.descending chain hchain⟩) ?_
  · intro rule hrule
    rw [hinsert] at hrule
    rcases List.mem_cons.mp hrule with rfl | hrule
    · exact .inr ⟨chain, hchain, rfl, generation, hlimit, rfl⟩
    · rw [← rulesOf_of_rules? hrules] at hrule
      exact h.known chain hchain rule hrule
  · have hjump := hlayout.jumped?_link hchain hchain rfl hlimit
    rw [if_pos rfl] at hjump
    rw [hinsert, Generation.linked, List.filterMap_cons_some hjump, links, rulesOf_of_rules? hrules, Generation.linked]
  · intro other hother hne hparent
    have hjump := hlayout.jumped?_link hother hchain (congrArg ChainId.table hparent) hlimit
    rw [if_neg hne] at hjump
    rw [hinsert, Generation.linked, List.filterMap_cons_none hjump, Generation.linked]

/-- Taking out a rule that jumps nowhere of interest changes nothing of interest. -/
theorem linked_erase_of_none {stem : String} {rule : Rule} (rules : List Rule)
    (h : Generation.jumped? stem rule = none) :
    Generation.linked stem (rules.erase rule) = Generation.linked stem rules := by
  induction rules with
  | nil => rfl
  | cons first rest ih =>
    by_cases heq : first = rule
    · rw [heq, List.erase_cons_head, Generation.linked, Generation.linked, List.filterMap_cons_none h]
    · rw [List.erase_cons_tail (by simpa using heq)]
      simp only [Generation.linked, List.filterMap_cons] at ih ⊢
      rw [ih]

/-- Taking out the only rule that jumps to a generation takes out that generation. -/
theorem linked_erase_of_some {stem : String} {rule : Rule} {rules : List Rule}
    (h : Generation.jumped? stem rule = some generation)
    (honly : ∀ other ∈ rules, Generation.jumped? stem other = some generation → other = rule) :
    Generation.linked stem (rules.erase rule) = (Generation.linked stem rules).erase generation := by
  induction rules with
  | nil => rfl
  | cons first rest ih =>
    by_cases heq : first = rule
    · rw [heq, List.erase_cons_head, Generation.linked, Generation.linked, List.filterMap_cons_some h,
        List.erase_cons_head]
    · have hrest := ih fun other hother => honly other (List.mem_cons_of_mem _ hother)
      rw [List.erase_cons_tail (by simpa using heq)]
      simp only [Generation.linked, List.filterMap_cons] at hrest ⊢
      cases hfirst : Generation.jumped? stem first with
      | none => exact hrest
      | some found =>
        have hne : found ≠ generation := by
          intro hfound
          exact heq (honly first (List.mem_cons_self ..) (hfound ▸ hfirst))
        dsimp only
        rw [hrest, List.erase_cons_tail (by simpa using hne)]

/-- Without its link a generation is not seen any more, and all others are as before. -/
theorem Tidy.erase_link (h : Tidy chains tables) (hlayout : Layout chains) (hchain : chain ∈ chains)
    (hlimit : generation < Generation.limit)
    (hafter : after = tables.modify chain.parentId fun rules => rules.erase (chain.link generation)) :
    Tidy chains after ∧
      (view after chain = ((links tables chain).erase generation).map fun found =>
        (found, tables.rules? (chain.generationId found))) ∧
      ∀ other ∈ chains, other ≠ chain → view after other = view tables other := by
  obtain ⟨rules, hrules⟩ := h.parents chain hchain
  rw [hafter]
  refine h.relink hlayout hchain hrules (fun rules => rules.erase (chain.link generation)) ?_ ?_ ?_ ?_
  · intro rule hrule
    have hmem := List.mem_of_mem_erase hrule
    rw [← rulesOf_of_rules? hrules] at hmem
    exact h.known chain hchain rule hmem
  · have hjump := hlayout.jumped?_link hchain hchain rfl hlimit
    rw [if_pos rfl] at hjump
    rw [links, rulesOf_of_rules? hrules]
    refine linked_erase_of_some hjump ?_
    intro rule hrule hfound
    rw [← rulesOf_of_rules? hrules] at hrule
    exact ((h.known chain hchain rule hrule).eq_link hlayout hchain hfound).2
  · exact (h.descending chain hchain).sublist List.erase_sublist
  · intro other hother hne hparent
    have hjump := hlayout.jumped?_link hother hchain (congrArg ChainId.table hparent) hlimit
    rw [if_neg hne] at hjump
    exact linked_erase_of_none rules hjump

end OverlayHost.Enforcer
