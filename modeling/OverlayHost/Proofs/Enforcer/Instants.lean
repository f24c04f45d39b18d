import OverlayHost.Proofs.Enforcer.Steps

/-!
# Policies at every instant

A site is a filter in memory on which rule sets are put into force, one call at a time. Any call can be made to fail,
the clock can show anything, and at any time the rule set at work can be dropped for another one, which is what happens
when an enforcer is cut off and a new one takes over. `intact_after_moves` says what holds between any two calls: no
linked generation is half filled, a chain that was ever linked stays linked, and its newest link is on top.
-/

set_option autoImplicit false

namespace OverlayHost.Enforcer

open OverlayHost.Filter (Tables ChainId Kind Memory Program)

variable {chains : List Chain} {chain : Chain} {set : RuleSet} {tables : Tables} {history : List Entry}

/-! ## Sites -/

/-- A filter, and what is left to do of the rule set that is being put into force. -/
structure Site where
  filter : Watched
  running : Option (RuleSet × Program (Except EnforceError Unit)) := none

/-- What can happen next. -/
inductive Move where
  /-- A rule set is taken up, in place of whatever was at work. -/
  | enforce (set : RuleSet)
  /-- The next call of a kind is made to fail. -/
  | failNext (kind : Kind)
  /-- The program at work makes its next call, or reads the clock, which shows a time. -/
  | advance (now : Nat)

namespace Site

/-- Lets something happen. -/
def move (site : Site) : Move → Site
  | .enforce set => { site with running := some (set, Enforcer.enforce set) }
  | .failNext kind => { site with filter := { site.filter with memory := site.filter.memory.failNext kind } }
  | .advance now =>
    match site.running with
    | none => site
    | some (_, .done _) => { site with running := none }
    | some (set, .clock next) => { site with running := some (set, next now) }
    | some (set, .call request next) =>
      let (reply, filter) := site.filter.perform set request
      { filter, running := some (set, next reply) }

/-- Lets things happen one after the other. -/
def after (site : Site) (moves : List Move) : Site := moves.foldl move site

/-- The tables are managed as long as generations have ten digits, and will be after each call of what is at work. -/
structure Sound (chains : List Chain) (site : Site) : Prop where
  managed : TenDigits site.filter.history → Managed chains site.filter.journal
  running : ∀ set program, site.running = some (set, program) →
    program.Ensures (Journal.Step set) (fun after => TenDigits after.history → Managed chains after)
      (fun _ _ => True) site.filter.journal

/-- Whatever happens, a site stays sound. -/
theorem Sound.move {site : Site} (h : Sound chains site) (hlayout : Layout chains) {next : Move}
    (hnext : ∀ set, next = .enforce set → set.chain ∈ chains) : Sound chains (site.move next) := by
  cases next with
  | enforce set =>
    refine ⟨h.managed, ?_⟩
    rintro _ _ ⟨rfl, rfl⟩
    exact (enforce_ensures hlayout (hnext set rfl) h.managed).mono (fun _ hafter => hafter) fun _ _ _ => trivial
  | failNext kind => exact ⟨h.managed, h.running⟩
  | advance now =>
    cases hrunning : site.running with
    | none =>
      simp only [Site.move, hrunning]
      exact h
    | some work =>
      obtain ⟨set, program⟩ := work
      have hprogram := h.running set program hrunning
      cases program with
      | done result =>
        simp only [Site.move, hrunning]
        exact ⟨h.managed, fun _ _ hnone => nomatch hnone⟩
      | clock next =>
        simp only [Site.move, hrunning]
        refine ⟨h.managed, ?_⟩
        rintro _ _ ⟨rfl, rfl⟩
        exact hprogram now
      | call request next =>
        simp only [Site.move, hrunning]
        obtain ⟨hmanaged, hrest⟩ := hprogram _ _ (site.filter.perform_step set request)
        refine ⟨hmanaged, ?_⟩
        rintro _ _ ⟨rfl, rfl⟩
        exact hrest

theorem Sound.after {site : Site} (h : Sound chains site) (hlayout : Layout chains) {moves : List Move}
    (hmoves : ∀ set, Move.enforce set ∈ moves → set.chain ∈ chains) : Sound chains (site.after moves) := by
  induction moves generalizing site with
  | nil => exact h
  | cons next rest ih =>
    refine ih (h.move hlayout ?_) ?_
    · rintro set rfl
      exact hmoves set (List.mem_cons_self ..)
    · intro set hset
      exact hmoves set (List.mem_cons_of_mem _ hset)

end Site

/-! ## What holds between calls -/

/-- No policy is half built and none is missing. -/
structure Intact (chains : List Chain) (tables : Tables) (history : List Entry) : Prop where
  /-- A generation that a parent jumps to holds exactly the rules of the rule set it was built for. -/
  whole : ∀ chain ∈ chains, ∀ rules, tables.rules? chain.parentId = some rules →
    ∀ rule ∈ rules, ∀ name, rule.target? = some name → (Generation.ofName? chain.stem name).isSome = true →
      ∃ set, builtFor history ⟨chain.table, name⟩ = some set ∧ set.chain = chain ∧
        tables.rules? ⟨chain.table, name⟩ = some set.rules
  /-- The parent of a chain that was ever linked jumps to one of its generations. -/
  linked : ∀ chain ∈ chains, ∀ entry ∈ history, entry.linksFor chain = true →
    ∃ rules, tables.rules? chain.parentId = some rules ∧
      ∃ rule ∈ rules, (Generation.jumped? chain.stem rule).isSome = true
  /-- The topmost jump to a generation of a chain is the newest link, to the newest generation that the parent jumps
  to, which holds the rules that were to be put into force then. -/
  topmost : ∀ chain ∈ chains, ∀ entry, newestLink history chain = some entry →
    ∃ rules generation, tables.rules? chain.parentId = some rules ∧
      (rules.find? fun rule => (Generation.jumped? chain.stem rule).isSome) = some (chain.link generation) ∧
      entry.call = ⟨chain.parentId, .bulkInsert 1 [chain.link generation]⟩ ∧
      tables.rules? (chain.generationId generation) = some entry.set.rules ∧
      ∀ rule ∈ rules, ∀ other, Generation.jumped? chain.stem rule = some other → other ≤ generation

/-- The first rule that jumps to a generation jumps to the first generation linked. -/
theorem find?_jumped {stem : String} {rules : List Rule} {generation : Nat} {older : List Nat}
    (h : Generation.linked stem rules = generation :: older) :
    ∃ rule, (rules.find? fun rule => (Generation.jumped? stem rule).isSome) = some rule ∧
      Generation.jumped? stem rule = some generation := by
  induction rules with
  | nil => cases h
  | cons rule rest ih =>
    rw [Generation.linked] at h ih
    cases hjump : Generation.jumped? stem rule with
    | none =>
      rw [List.filterMap_cons_none hjump] at h
      obtain ⟨found, hfind, hfound⟩ := ih h
      exact ⟨found, by rw [List.find?_cons_of_neg (by simp [hjump]), hfind], hfound⟩
    | some found =>
      rw [List.filterMap_cons_some hjump] at h
      obtain ⟨rfl, -⟩ := List.cons.inj h
      exact ⟨rule, by rw [List.find?_cons_of_pos (by simp [hjump])], hjump⟩

/-- The first generation that a parent links is the newest link of its chain, and holds the rules of that link. -/
theorem Managed.links_of_newestLink (h : Managed chains ⟨tables, history⟩) (hchain : chain ∈ chains) {entry : Entry}
    (hentry : newestLink history chain = some entry) :
    ∃ generation older, links tables chain = generation :: older ∧
      entry.call = ⟨chain.parentId, .bulkInsert 1 [chain.link generation]⟩ ∧
      tables.rules? (chain.generationId generation) = some entry.set.rules := by
  have htop := h.top chain hchain
  dsimp only at htop
  rw [hentry, view] at htop
  cases hlinks : links tables chain with
  | nil =>
    rw [hlinks] at htop
    cases htop
  | cons generation older =>
    rw [hlinks, Option.map_some, List.map_cons, List.head?_cons, Option.map_some] at htop
    obtain ⟨hcall, hrules⟩ := Prod.mk.inj (Option.some.inj htop)
    exact ⟨generation, older, rfl, hcall, hrules.symm⟩

/-- What a parent holds jumps to a generation only if it links it. -/
theorem Managed.mem_links (h : Managed chains ⟨tables, history⟩) (hlayout : Layout chains) (hchain : chain ∈ chains)
    {rules : List Rule} (hrules : tables.rules? chain.parentId = some rules) {rule : Rule} (hrule : rule ∈ rules)
    {generation : Nat} (hjump : Generation.jumped? chain.stem rule = some generation) :
    rule = chain.link generation ∧ generation ∈ links tables chain := by
  have hknown : Known chains chain.parentId rule := by
    apply h.tidy.known chain hchain
    rw [rulesOf_of_rules? hrules]
    exact hrule
  obtain ⟨hlimit, rfl⟩ := hknown.eq_link hlayout hchain hjump
  refine ⟨rfl, ?_⟩
  rw [h.tidy.mem_links_iff hlayout hchain, rulesOf_of_rules? hrules]
  exact ⟨hlimit, hrule⟩

theorem Managed.intact (h : Managed chains ⟨tables, history⟩) (hlayout : Layout chains) :
    Intact chains tables history := by
  have hrulesOf (chain : Chain) (hchain : chain ∈ chains) :
      ∃ rules, tables.rules? chain.parentId = some rules ∧
        links tables chain = Generation.linked chain.stem rules := by
    obtain ⟨rules, hrules⟩ := h.tidy.parents chain hchain
    exact ⟨rules, hrules, by rw [links, rulesOf_of_rules? hrules]⟩
  refine ⟨?_, ?_, ?_⟩
  · intro chain hchain rules hrules rule hrule name htarget hname
    obtain ⟨generation, hgeneration⟩ := Option.isSome_iff_exists.mp hname
    have hjump : Generation.jumped? chain.stem rule = some generation := by
      rw [Generation.jumped?, htarget, Option.bind_some, hgeneration]
    obtain ⟨rfl, hlinked⟩ := h.mem_links hlayout hchain hrules hrule hjump
    obtain rfl : Generation.name chain.stem generation = name := by
      rw [Chain.link, Generation.target?_jumpTo] at htarget
      exact Option.some.inj htarget
    obtain ⟨set, hbuilt, hset, hcontent⟩ := h.whole chain hchain _ (mem_view_of_mem_links hlinked)
    exact ⟨set, hbuilt, hset, hcontent⟩
  · intro chain hchain entry hentry hlinks
    obtain ⟨newest, hnewest⟩ : ∃ newest, newestLink history chain = some newest := by
      rw [← Option.isSome_iff_exists, newestLink, List.find?_isSome]
      exact ⟨entry, hentry, hlinks⟩
    obtain ⟨generation, older, htop, -⟩ := h.links_of_newestLink hchain hnewest
    obtain ⟨rules, hrules, hlinked⟩ := hrulesOf chain hchain
    rw [hlinked] at htop
    obtain ⟨rule, hfind, hjump⟩ := find?_jumped htop
    exact ⟨rules, hrules, rule, List.mem_of_find?_eq_some hfind, by rw [hjump]; rfl⟩
  · intro chain hchain entry hentry
    obtain ⟨generation, older, htop, hcall, hcontent⟩ := h.links_of_newestLink hchain hentry
    obtain ⟨rules, hrules, hlinked⟩ := hrulesOf chain hchain
    have hsorted := h.tidy.descending chain hchain
    dsimp only at hsorted
    rw [htop] at hsorted
    obtain ⟨rule, hfind, hjump⟩ := find?_jumped (hlinked.symm.trans htop)
    obtain ⟨rfl, -⟩ := h.mem_links hlayout hchain hrules (List.mem_of_find?_eq_some hfind) hjump
    refine ⟨rules, generation, hrules, hfind, hcall, hcontent, ?_⟩
    intro second hsecond other hother
    obtain ⟨-, hmem⟩ := h.mem_links hlayout hchain hrules hsecond hother
    rw [htop] at hmem
    rcases List.mem_cons.mp hmem with rfl | hmem
    · exact Nat.le_refl _
    · exact Nat.le_of_lt ((List.pairwise_cons.mp hsorted).1 other hmem)

/-- From clean tables on, whatever happens and whenever one looks, no policy is half built and none is missing, as long
as generations have ten digits. -/
theorem intact_after_moves (hlayout : Layout chains) {memory : Memory} (hclean : Clean chains memory.tables)
    {moves : List Move} (hmoves : ∀ set, Move.enforce set ∈ moves → set.chain ∈ chains)
    (hdigits : TenDigits ((Site.mk ⟨memory, []⟩ none).after moves).filter.history) :
    Intact chains ((Site.mk ⟨memory, []⟩ none).after moves).filter.memory.tables
      ((Site.mk ⟨memory, []⟩ none).after moves).filter.history := by
  have hstart : Site.Sound chains ⟨⟨memory, []⟩, none⟩ :=
    ⟨fun _ => hclean.managed, fun _ _ hnone => nomatch hnone⟩
  have hsound := hstart.after hlayout hmoves
  exact (hsound.managed hdigits).intact hlayout

/-- A first policy is put into force, a second one fails to be filled in and is cut off before its generation is
deleted, and a third one fails to remove the first. -/
theorem intact_after_failures :
    Layout [⟨"filter", "FORWARD", "p-"⟩] ∧ Clean [⟨"filter", "FORWARD", "p-"⟩] Tables.initial ∧
      Intact [⟨"filter", "FORWARD", "p-"⟩]
        ((Site.mk ⟨Memory.initial, []⟩ none).after
          ([.enforce ⟨⟨"filter", "FORWARD", "p-"⟩, [Rule.acceptLocal]⟩] ++ List.replicate 6 (.advance 1700000000) ++
            [.enforce ⟨⟨"filter", "FORWARD", "p-"⟩, [Rule.jumpTo "nowhere"]⟩] ++ List.replicate 5 (.advance 1600000000) ++
            [.enforce ⟨⟨"filter", "FORWARD", "p-"⟩, [Rule.acceptRemote 1]⟩, .failNext .delete] ++
            List.replicate 7 (.advance 1700000005))).filter.memory.tables
        ((Site.mk ⟨Memory.initial, []⟩ none).after
          ([.enforce ⟨⟨"filter", "FORWARD", "p-"⟩, [Rule.acceptLocal]⟩] ++ List.replicate 6 (.advance 1700000000) ++
            [.enforce ⟨⟨"filter", "FORWARD", "p-"⟩, [Rule.jumpTo "nowhere"]⟩] ++ List.replicate 5 (.advance 1600000000) ++
            [.enforce ⟨⟨"filter", "FORWARD", "p-"⟩, [Rule.acceptRemote 1]⟩, .failNext .delete] ++
            List.replicate 7 (.advance 1700000005))).filter.history := by
  have hlayout : Layout [⟨"filter", "FORWARD", "p-"⟩] := ⟨by decide, by decide⟩
  have hclean : Clean [⟨"filter", "FORWARD", "p-"⟩] Tables.initial := clean_initial (by decide)
  refine ⟨hlayout, hclean, intact_after_moves hlayout hclean ?_ (tenDigits_of_names (by decide))⟩
  intro set hset
  simp only [List.mem_append, List.mem_cons, List.mem_replicate, List.not_mem_nil, or_false, reduceCtorEq, and_false,
    Move.enforce.injEq] at hset
  rcases hset with (rfl | rfl) | rfl
  all_goals exact List.mem_singleton_self _

end OverlayHost.Enforcer
