import OverlayHost.Proofs.Enforcer.Parents
import OverlayHost.Proofs.Filter.Execution

/-!
# A journal of calls

The calls that were made on tables, each with its answer and with the rule set on whose behalf it was made. The journal
says which rule set a generation was built for and which link of a chain is the newest. `Managed` ties it to the
tables: every generation that a parent links holds all rules of the rule set it was built for, and the topmost is the
one of the newest link.
-/

set_option autoImplicit false

namespace OverlayHost.Enforcer

open OverlayHost.Filter (Tables ChainId Call Reply Operation Memory Program)

/-- One call, made to put a rule set into force, and its answer. -/
structure Entry where
  set : RuleSet
  call : Call
  reply : Reply

/-- Whether the call added a chain. -/
def Entry.creates (entry : Entry) (id : ChainId) : Bool := entry.call = ⟨id, .newChain⟩ && entry.reply.isOk

/-- Whether the call linked a generation of a chain. -/
def Entry.linksFor (entry : Entry) (chain : Chain) : Bool :=
  entry.set.chain = chain && entry.call.operation.kind = .bulkInsert && entry.reply.isOk

/-- The rule set that a chain was last built for. Histories start with what happened last. -/
def builtFor (history : List Entry) (id : ChainId) : Option RuleSet :=
  (history.find? fun entry => entry.creates id).map Entry.set

/-- The call that last linked a generation of a chain. -/
def newestLink (history : List Entry) (chain : Chain) : Option Entry :=
  history.find? fun entry => entry.linksFor chain

/-- Whether every generation that was to be built has a number of ten digits. -/
def TenDigits (history : List Entry) : Prop :=
  ∀ entry ∈ history, ∀ generation, entry.call = ⟨entry.set.chain.generationId generation, .newChain⟩ →
    generation < Generation.limit

/-- Tables and the calls that led to them, the last one first. -/
structure Journal where
  tables : Tables
  history : List Entry

variable {chains : List Chain} {set : RuleSet} {chain : Chain} {before after : Journal} {call : Call} {reply : Reply}
  {entry : Entry} {history : List Entry} {tables : Tables} {generation : Nat}

/-- A call made to put a rule set into force, of which any can fail, is entered with its answer. -/
def Journal.Step (set : RuleSet) (before : Journal) (call : Call) (reply : Reply) (after : Journal) : Prop :=
  before.tables.Answers (fun _ => True) call reply after.tables ∧ after.history = ⟨set, call, reply⟩ :: before.history

theorem Journal.Step.cases (h : Journal.Step set before call reply after) :
    (∃ cause, reply = .error cause ∧ after = ⟨before.tables, ⟨set, call, .error cause⟩ :: before.history⟩) ∨
    ∃ lines tables, reply = .ok lines ∧ before.tables.apply call = .ok (lines, tables) ∧
      after = ⟨tables, ⟨set, call, .ok lines⟩ :: before.history⟩ := by
  obtain ⟨hanswer, hhistory⟩ := h
  obtain ⟨tables, history⟩ := after
  dsimp only at hanswer hhistory
  rcases hanswer.cases with ⟨cause, rfl, rfl, -⟩ | ⟨lines, rfl, hdone⟩
  · exact .inl ⟨cause, rfl, by rw [hhistory]⟩
  · exact .inr ⟨lines, tables, rfl, hdone, by rw [hhistory]⟩

theorem Journal.Step.sameBut {call : Call} (h : Journal.Step set before call reply after) :
    before.tables.SameBut call.chain after.tables := by
  rcases h.cases with ⟨cause, -, rfl⟩ | ⟨lines, tables, -, hdone, rfl⟩
  · exact fun _ _ => rfl
  · exact Tables.sameBut_of_apply hdone

/-- A call that can be carried out is carried out, unless it is made to fail. -/
theorem Journal.Step.of_apply {lines : List String} {tables : Tables} (h : Journal.Step set before call reply after)
    (happly : before.tables.apply call = .ok (lines, tables)) :
    (reply = .error (Tables.Refusal.injected call.operation.kind).toError ∧
      after = ⟨before.tables, ⟨set, call, reply⟩ :: before.history⟩) ∨
    (reply = .ok lines ∧ after = ⟨tables, ⟨set, call, reply⟩ :: before.history⟩) := by
  obtain ⟨hanswer, hhistory⟩ := h
  obtain ⟨_, _⟩ := after
  dsimp only at hanswer hhistory
  rw [hhistory]
  cases hanswer with
  | injected _ => exact .inl ⟨rfl, rfl⟩
  | refused hrefused =>
    rw [happly] at hrefused
    cases hrefused
  | done hdone =>
    rw [happly] at hdone
    cases hdone
    exact .inr ⟨rfl, rfl⟩

/-- A filter in memory with the calls made on it, the last one first. -/
structure Watched where
  memory : Memory
  history : List Entry := []

/-- What the filter's tables and its calls make up. -/
def Watched.journal (watched : Watched) : Journal := ⟨watched.memory.tables, watched.history⟩

/-- Answers a call that is made to put a rule set into force, and enters it. -/
def Watched.perform (set : RuleSet) (watched : Watched) (call : Call) : Reply × Watched :=
  let (reply, memory) := watched.memory.perform call
  (reply, ⟨memory, ⟨set, call, reply⟩ :: watched.history⟩)

theorem Watched.perform_step (set : RuleSet) (watched : Watched) (call : Call) :
    Journal.Step set watched.journal call (watched.perform set call).1 (watched.perform set call).2.journal :=
  ⟨(watched.memory.perform_answers call).mono fun _ _ => trivial, rfl⟩

theorem TenDigits.of_step (h : Journal.Step set before call reply after) (hdigits : TenDigits after.history) :
    TenDigits before.history := by
  intro entry hentry
  apply hdigits entry
  rw [h.2]
  exact List.mem_cons_of_mem _ hentry

/-- Once there is a generation of more digits, nothing is asked of the calls that follow. -/
theorem ensures_of_not_tenDigits {α : Type} {inv : Journal → Prop} {post : α → Journal → Prop} (program : Program α)
    (h : ¬ TenDigits before.history) :
    program.Ensures (Journal.Step set) (fun after => TenDigits after.history → inv after)
      (fun result after => TenDigits after.history → post result after) before :=
  Program.ensures_of_not (TenDigits ∘ Journal.history) (fun _ _ _ _ => TenDigits.of_step) program h

/-- Generations have ten digits if the names of the chains that were added do. -/
theorem tenDigits_of_names (h : ∀ entry ∈ history, entry.call.operation = .newChain →
    (Generation.ofName? entry.set.chain.stem entry.call.chain.name).isSome = true) : TenDigits history := by
  intro entry hentry generation hcall
  apply Generation.lt_limit_of_ofName?
  have hname := h entry hentry (by rw [hcall])
  rw [hcall] at hname
  exact hname

theorem builtFor_cons_of_creates {id : ChainId} (h : entry.creates id = true) :
    builtFor (entry :: history) id = some entry.set := by
  simp [builtFor, h]

theorem builtFor_cons_of_not {id : ChainId} (h : entry.creates id = false) :
    builtFor (entry :: history) id = builtFor history id := by
  simp [builtFor, h]

theorem newestLink_cons_of_linksFor (h : entry.linksFor chain = true) :
    newestLink (entry :: history) chain = some entry := by
  simp [newestLink, h]

theorem newestLink_cons_of_not (h : entry.linksFor chain = false) :
    newestLink (entry :: history) chain = newestLink history chain := by
  simp [newestLink, h]

theorem linksFor_eq_false_of_kind (h : entry.call.operation.kind ≠ .bulkInsert) : entry.linksFor chain = false := by
  simp [Entry.linksFor, h]

theorem creates_eq_false_of_chain {id : ChainId} (h : id ≠ entry.call.chain) : entry.creates id = false := by
  have hcall : entry.call ≠ ⟨id, .newChain⟩ := by
    intro heq
    rw [heq] at h
    exact h rfl
  simp [Entry.creates, hcall]

theorem creates_eq_false_of_operation {id : ChainId} (h : entry.call.operation ≠ .newChain) :
    entry.creates id = false := by
  have hcall : entry.call ≠ ⟨id, .newChain⟩ := fun heq => h (congrArg Call.operation heq)
  simp [Entry.creates, hcall]

theorem creates_eq_false_of_error {id : ChainId} {cause : Filter.Error} :
    Entry.creates ⟨set, call, .error cause⟩ id = false := by
  simp [Entry.creates, Except.isOk, Except.toBool]

/-! ## Managed tables -/

/-- Every generation that is linked holds all rules of the rule set it was built for, and the topmost one of a chain is
the one that was linked last. -/
structure Managed (chains : List Chain) (journal : Journal) : Prop where
  tidy : Tidy chains journal.tables
  whole : ∀ chain ∈ chains, ∀ seen ∈ view journal.tables chain, ∃ set,
    builtFor journal.history (chain.generationId seen.1) = some set ∧ set.chain = chain ∧ seen.2 = some set.rules
  top : ∀ chain ∈ chains,
    (newestLink journal.history chain).map (fun entry => (entry.call, some entry.set.rules)) =
      (view journal.tables chain).head?.map fun seen =>
        (⟨chain.parentId, .bulkInsert 1 [chain.link seen.1]⟩, seen.2)

theorem view_eq_nil_iff : view tables chain = [] ↔ links tables chain = [] := by
  rw [view, List.map_eq_nil_iff]

theorem mem_view_of_mem_links (h : generation ∈ links tables chain) :
    (generation, tables.rules? (chain.generationId generation)) ∈ view tables chain :=
  List.mem_map_of_mem h

theorem mem_links_of_mem_view {seen : Nat × Option (List Rule)} (h : seen ∈ view tables chain) :
    seen.1 ∈ links tables chain := by
  obtain ⟨generation, hgeneration, rfl⟩ := List.mem_map.mp h
  exact hgeneration

/-- Clean tables are managed before anything is called. -/
theorem Clean.managed (h : Clean chains tables) : Managed chains ⟨tables, []⟩ := by
  obtain ⟨htidy, hlinks⟩ := h.tidy
  refine ⟨htidy, ?_, ?_⟩
  · intro chain hchain seen hseen
    rw [view_eq_nil_iff.mpr (hlinks chain hchain)] at hseen
    cases hseen
  · intro chain hchain
    dsimp only
    rw [view_eq_nil_iff.mpr (hlinks chain hchain)]
    rfl

/-- A call that no parent shows anything of leaves managed tables. -/
theorem Managed.of_same_views (h : Managed chains before) (htidy : Tidy chains tables)
    (hviews : ∀ chain ∈ chains, view tables chain = view before.tables chain)
    (hcreates : ∀ chain ∈ chains, ∀ generation ∈ links before.tables chain,
      entry.creates (chain.generationId generation) = false)
    (hlinks : ∀ chain ∈ chains, entry.linksFor chain = false) :
    Managed chains ⟨tables, entry :: before.history⟩ := by
  refine ⟨htidy, ?_, ?_⟩
  · intro chain hchain seen hseen
    dsimp only at hseen ⊢
    rw [hviews chain hchain] at hseen
    rw [builtFor_cons_of_not (hcreates chain hchain seen.1 (mem_links_of_mem_view hseen))]
    exact h.whole chain hchain seen hseen
  · intro chain hchain
    dsimp only
    rw [newestLink_cons_of_not (hlinks chain hchain), hviews chain hchain]
    exact h.top chain hchain

/-- A call that failed leaves managed tables. -/
theorem Managed.of_error (h : Managed chains before) {cause : Filter.Error} :
    Managed chains ⟨before.tables, ⟨set, call, .error cause⟩ :: before.history⟩ := by
  refine h.of_same_views h.tidy (fun _ _ => rfl) ?_ ?_
  · intro chain _ generation _
    exact creates_eq_false_of_error
  · intro chain _
    simp [Entry.linksFor, Except.isOk, Except.toBool]

/-- A call on a generation that is not linked leaves managed tables, and no parent shows anything of it. -/
theorem Managed.of_unlinked (entry : Entry) (h : Managed chains before) (hlayout : Layout chains)
    (hchain : chain ∈ chains)
    (hlimit : generation < Generation.limit) (hunlinked : generation ∉ links before.tables chain)
    (hsame : before.tables.SameBut (chain.generationId generation) tables)
    (hcall : entry.call.chain = chain.generationId generation) (hkind : entry.call.operation.kind ≠ .bulkInsert) :
    Managed chains ⟨tables, entry :: before.history⟩ ∧
      ∀ other ∈ chains, view tables other = view before.tables other := by
  obtain ⟨htidy, -⟩ := h.tidy.of_sameBut hchain hlimit hsame
  have hviews := h.tidy.view_of_sameBut hlayout hchain hlimit hunlinked hsame
  refine ⟨h.of_same_views htidy hviews ?_ ?_, hviews⟩
  · intro other hother found hfound
    apply creates_eq_false_of_chain
    rw [hcall]
    intro heq
    have hfoundLimit := ((h.tidy.mem_links_iff hlayout hother).mp hfound).1
    obtain ⟨rfl, rfl⟩ := hlayout.generationId_inj hother hchain hfoundLimit hlimit heq
    exact hunlinked hfound
  · intro other _
    exact linksFor_eq_false_of_kind hkind

theorem links_eq_map_view (tables : Tables) (chain : Chain) :
    links tables chain = (view tables chain).map Prod.fst := by
  rw [view, List.map_map]
  exact (List.map_id _).symm

/-- However a call on a generation that is not linked is answered, the tables stay managed, and no parent shows
anything of it. -/
theorem Managed.step_unlinked (h : Managed chains before) (hlayout : Layout chains) (hset : set.chain ∈ chains)
    (hlimit : generation < Generation.limit) (hunlinked : generation ∉ links before.tables set.chain)
    {operation : Operation} (hkind : operation.kind ≠ .bulkInsert)
    (hstep : Journal.Step set before ⟨set.chain.generationId generation, operation⟩ reply after) :
    Managed chains after ∧ generation ∉ links after.tables set.chain ∧
      ∀ other ∈ chains, view after.tables other = view before.tables other := by
  rcases hstep.cases with ⟨cause, -, rfl⟩ | ⟨lines, tables, -, hdone, rfl⟩
  · exact ⟨h.of_error, hunlinked, fun _ _ => rfl⟩
  · obtain ⟨hmanaged, hviews⟩ := Managed.of_unlinked
      ⟨set, ⟨set.chain.generationId generation, operation⟩, .ok lines⟩ h hlayout hset hlimit hunlinked
      (Tables.sameBut_of_apply hdone) rfl hkind
    refine ⟨hmanaged, ?_, hviews⟩
    rw [links_eq_map_view, hviews _ hset, ← links_eq_map_view]
    exact hunlinked

/-- A call that the parents show something of for one chain only leaves managed tables if that chain's part of it is in
order. -/
theorem Managed.of_others (chain : Chain) (h : Managed chains before) (htidy : Tidy chains tables)
    (hcreates : ∀ id, entry.creates id = false)
    (hlinks : ∀ other, other ≠ chain → entry.linksFor other = false)
    (hothers : ∀ other ∈ chains, other ≠ chain → view tables other = view before.tables other)
    (hwhole : ∀ seen ∈ view tables chain, ∃ set,
      builtFor before.history (chain.generationId seen.1) = some set ∧ set.chain = chain ∧ seen.2 = some set.rules)
    (htop : (newestLink (entry :: before.history) chain).map (fun entry => (entry.call, some entry.set.rules)) =
      (view tables chain).head?.map fun seen =>
        (⟨chain.parentId, .bulkInsert 1 [chain.link seen.1]⟩, seen.2)) :
    Managed chains ⟨tables, entry :: before.history⟩ := by
  refine ⟨htidy, ?_, ?_⟩
  · intro other hother seen hseen
    dsimp only at hseen ⊢
    rw [builtFor_cons_of_not (hcreates _)]
    by_cases heq : other = chain
    · rw [heq] at hseen ⊢
      exact hwhole seen hseen
    · rw [hothers other hother heq] at hseen
      exact h.whole other hother seen hseen
  · intro other hother
    dsimp only
    by_cases heq : other = chain
    · rw [heq]
      exact htop
    · rw [newestLink_cons_of_not (hlinks other heq), hothers other hother heq]
      exact h.top other hother

/-- Linking a generation that holds what it was built for leaves managed tables, with that generation on top. -/
theorem Managed.of_link (h : Managed chains before) (hlayout : Layout chains) (hset : set.chain ∈ chains)
    (hlimit : generation < Generation.limit) (hnewer : ∀ old ∈ links before.tables set.chain, old < generation)
    (hbuilt : builtFor before.history (set.chain.generationId generation) = some set)
    (hrules : before.tables.rules? (set.chain.generationId generation) = some set.rules)
    (hafter : tables = before.tables.modify set.chain.parentId
      (Tables.insertAt 1 [set.chain.link generation])) (lines : List String) :
    Managed chains ⟨tables, ⟨set, ⟨set.chain.parentId, .bulkInsert 1 [set.chain.link generation]⟩, .ok lines⟩ ::
        before.history⟩ ∧
      view tables set.chain = (generation, some set.rules) :: view before.tables set.chain ∧
      ∀ other ∈ chains, other ≠ set.chain → view tables other = view before.tables other := by
  obtain ⟨htidy, hown, hothers⟩ := h.tidy.insert_link hlayout hset hlimit hnewer hafter
  rw [hrules] at hown
  refine ⟨.of_others set.chain h htidy ?_ ?_ hothers ?_ ?_, hown, hothers⟩
  · intro id
    simp [Entry.creates]
  · intro other hne
    have hne : ¬ set.chain = other := fun hsame => hne hsame.symm
    simp [Entry.linksFor, hne]
  · intro seen hseen
    rw [hown] at hseen
    rcases List.mem_cons.mp hseen with rfl | hseen
    · exact ⟨set, hbuilt, rfl, rfl⟩
    · exact h.whole set.chain hset seen hseen
  · rw [hown, newestLink_cons_of_linksFor (by simp [Entry.linksFor, Operation.kind, Except.isOk, Except.toBool])]
    rfl

/-- Taking out the link of the oldest generation, if that is not the only one, leaves managed tables that show all
but that generation. -/
theorem Managed.of_unlink (h : Managed chains before) (hlayout : Layout chains) (hset : set.chain ∈ chains)
    {newest : Nat × Option (List Rule)} {older : List (Nat × Option (List Rule))} {old : Nat}
    {content : Option (List Rule)}
    (hview : view before.tables set.chain = newest :: (older ++ [(old, content)]))
    (hafter : tables = before.tables.modify set.chain.parentId fun rules => rules.erase (set.chain.link old))
    (lines : List String) :
    Managed chains ⟨tables, ⟨set, ⟨set.chain.parentId, .delete (set.chain.link old)⟩, .ok lines⟩ ::
        before.history⟩ ∧
      view tables set.chain = newest :: older ∧ old ∉ links tables set.chain ∧
      ∀ other ∈ chains, other ≠ set.chain → view tables other = view before.tables other := by
  have hlinks : links before.tables set.chain = (newest :: older).map Prod.fst ++ [old] := by
    rw [links_eq_map_view, hview, ← List.cons_append, List.map_append, List.map_singleton]
  have hold : old ∈ links before.tables set.chain := by simp [hlinks]
  have hlimit := ((h.tidy.mem_links_iff hlayout hset).mp hold).1
  obtain ⟨htidy, hown, hothers⟩ := h.tidy.erase_link hlayout hset hlimit hafter
  -- the links descend, so the oldest one occurs at the end only
  have hlast : old ∉ (newest :: older).map Prod.fst := by
    have hsorted := h.tidy.descending set.chain hset
    rw [hlinks] at hsorted
    intro hmem
    have hgt := (List.pairwise_append.mp hsorted).2.2 old hmem old (List.mem_singleton_self old)
    exact Nat.lt_irrefl old hgt
  have hsub : ∀ seen ∈ newest :: older, seen ∈ view before.tables set.chain := by
    intro seen hseen
    rw [hview, ← List.cons_append]
    exact List.mem_append_left _ hseen
  have hshown : view tables set.chain = newest :: older := by
    rw [hown, hlinks, List.erase_append_right _ hlast, List.erase_cons_head, List.append_nil, List.map_map]
    refine (List.map_congr_left fun seen hseen => ?_).trans (List.map_id _)
    obtain ⟨found, -, rfl⟩ := List.mem_map.mp (hsub seen hseen)
    rfl
  refine ⟨.of_others set.chain h htidy ?_ ?_ hothers ?_ ?_, hshown, ?_, hothers⟩
  · intro id
    simp [Entry.creates]
  · intro other _
    exact linksFor_eq_false_of_kind (by simp [Operation.kind])
  · intro seen hseen
    rw [hshown] at hseen
    exact h.whole set.chain hset seen (hsub seen hseen)
  · have htop := h.top set.chain hset
    rw [hview] at htop
    rw [newestLink_cons_of_not (linksFor_eq_false_of_kind (by simp [Operation.kind])), hshown]
    exact htop
  · rw [links_eq_map_view, hshown]
    exact hlast

end OverlayHost.Enforcer
