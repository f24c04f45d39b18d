import OverlayHost.Proofs.Enforcer.Accounts

/-!
# Which generations stand

Rule sets for any chains are put into force on tables that hold none of their generations, with any calls failing. The
chains may share a stem, even in one table, and the rules may jump anywhere. A generation stands if it was added and has
not been deleted since. Each one that stands is linked by the parent of a chain with that stem, or it is the one at
work, or a call that was to empty or to delete it has failed since it was added: `Surveyed`. `enforce_surveyed` follows
the enforcer through its calls.
-/

set_option autoImplicit false

namespace OverlayHost.Enforcer

open OverlayHost.Filter (Tables ChainId Call Reply Operation)

variable {chains : List Chain} {chain : Chain} {set : RuleSet} {tables later : Tables} {generation : Nat}
  {loose counted : List ChainId} {before after journal : Journal} {entry : Entry} {history : List Entry} {id : ChainId}
  {call : Call} {reply : Reply}

/-! ## Standing -/

/-- Whether the call deleted a chain. -/
def Entry.deletes (entry : Entry) (id : ChainId) : Bool := entry.call = ⟨id, .deleteChain⟩ && entry.reply.isOk

/-- Whether a chain was added and has not been deleted since. -/
def stands (history : List Entry) (id : ChainId) : Bool :=
  (history.find? fun entry => entry.creates id || entry.deletes id).any fun entry => entry.creates id

theorem stands_cons_of_creates (h : entry.creates id = true) : stands (entry :: history) id = true := by
  simp [stands, h]

theorem stands_cons_of_deletes (hcreates : entry.creates id = false) (h : entry.deletes id = true) :
    stands (entry :: history) id = false := by
  simp [stands, hcreates, h]

theorem stands_cons_of_neither (hcreates : entry.creates id = false) (hdeletes : entry.deletes id = false) :
    stands (entry :: history) id = stands history id := by
  simp [stands, hcreates, hdeletes]

theorem stands_of_cons (h : stands (entry :: history) id = true) (hcreates : entry.creates id = false) :
    stands history id = true := by
  cases hdeletes : entry.deletes id with
  | true =>
    rw [stands_cons_of_deletes hcreates hdeletes] at h
    cases h
  | false =>
    rw [stands_cons_of_neither hcreates hdeletes] at h
    exact h

/-- Only adding a chain makes it exist, and only deleting it ends that. -/
theorem hasChain_of_apply {lines : List String} (h : tables.apply call = .ok (lines, later)) (id : ChainId) :
    later.hasChain id = if call = ⟨id, .newChain⟩ then true else
      if call = ⟨id, .deleteChain⟩ then false else tables.hasChain id := by
  by_cases hchain : id = call.chain
  case neg =>
    have hcall (operation : Operation) : call ≠ ⟨id, operation⟩ := fun heq => hchain (congrArg Call.chain heq).symm
    rw [if_neg (hcall _), if_neg (hcall _), Tables.hasChain, Tables.sameBut_of_apply h id hchain, Tables.hasChain]
  case pos =>
  subst hchain
  obtain ⟨id, operation⟩ := call
  cases operation with
  | list =>
    obtain ⟨-, -, -, rfl⟩ := Tables.apply_list_eq_ok.mp h
    simp
  | newChain =>
    obtain ⟨hnew, -, rfl⟩ := Tables.apply_newChain_eq_ok.mp h
    simp [Tables.hasChain, Tables.rules?_addChain hnew]
  | deleteChain =>
    obtain ⟨-, -, -, rfl⟩ := Tables.apply_deleteChain_eq_ok.mp h
    simp [Tables.hasChain, Tables.rules?_removeChain]
  | clearChain =>
    obtain ⟨-, -, rfl⟩ := Tables.apply_clearChain_eq_ok.mp h
    simp [Tables.hasChain_modify]
  | delete rule =>
    obtain ⟨-, -, rfl⟩ := Tables.apply_delete_eq_ok.mp h
    simp [Tables.hasChain_modify]
  | bulkInsert position added =>
    obtain ⟨-, -, -, rfl⟩ := Tables.apply_bulkInsert_eq_ok.mp h
    simp [Tables.hasChain_modify]
  | bulkAppend added =>
    obtain ⟨-, -, -, rfl⟩ := Tables.apply_bulkAppend_eq_ok.mp h
    simp [Tables.hasChain_modify]

/-- The chains that stand go on to be those that exist. -/
theorem stands_of_step (h : Journal.Step set before call reply after)
    (hbefore : stands before.history id = before.tables.hasChain id) :
    stands after.history id = after.tables.hasChain id := by
  rcases h.cases with ⟨cause, rfl, rfl⟩ | ⟨lines, tables, rfl, hdone, rfl⟩
  · dsimp only
    rw [stands_cons_of_neither creates_eq_false_of_error (by simp [Entry.deletes, Except.isOk, Except.toBool]), hbefore]
  · dsimp only
    rw [hasChain_of_apply hdone id]
    have hcreates : Entry.creates ⟨set, call, .ok lines⟩ id = decide (call = ⟨id, .newChain⟩) := by
      simp [Entry.creates, Except.isOk, Except.toBool]
    have hdeletes : Entry.deletes ⟨set, call, .ok lines⟩ id = decide (call = ⟨id, .deleteChain⟩) := by
      simp [Entry.deletes, Except.isOk, Except.toBool]
    split
    next hnew => exact stands_cons_of_creates (by rw [hcreates, decide_eq_true hnew])
    next hnew =>
      have hcreates : Entry.creates ⟨set, call, .ok lines⟩ id = false := by rw [hcreates, decide_eq_false hnew]
      split
      next hdelete => exact stands_cons_of_deletes hcreates (by rw [hdeletes, decide_eq_true hdelete])
      next hdelete =>
        rw [stands_cons_of_neither hcreates (by rw [hdeletes, decide_eq_false hdelete]), hbefore]

/-! ## Abandoned -/

/-- Whether the call was to empty or to delete a chain and failed. -/
def Entry.Balks (entry : Entry) (id : ChainId) : Prop :=
  (entry.call = ⟨id, .clearChain⟩ ∨ entry.call = ⟨id, .deleteChain⟩) ∧ ∃ cause, entry.reply = .error cause

/-- Whether a call that was to empty or to delete a chain has failed since the chain was added last. -/
def Balked (history : List Entry) (id : ChainId) : Prop :=
  ∃ entry ∈ history.takeWhile (fun entry => !entry.creates id), entry.Balks id

/-- Whether a chain stands that was to be removed. -/
def Abandoned (history : List Entry) (id : ChainId) : Prop := stands history id = true ∧ Balked history id

theorem Balked.cons (h : Balked history id) (hcreates : entry.creates id = false) : Balked (entry :: history) id := by
  obtain ⟨balking, hmem, hbalks⟩ := h
  refine ⟨balking, ?_, hbalks⟩
  rw [List.takeWhile_cons_of_pos (by rw [hcreates]; rfl)]
  exact List.mem_cons_of_mem entry hmem

theorem balked_of_balks {cause : Filter.Error} {operation : Operation}
    (h : operation = .clearChain ∨ operation = .deleteChain) (set : RuleSet) (history : List Entry) (id : ChainId) :
    Balked (⟨set, ⟨id, operation⟩, .error cause⟩ :: history) id := by
  refine ⟨⟨set, ⟨id, operation⟩, .error cause⟩, ?_, h.imp (congrArg (Call.mk id)) (congrArg (Call.mk id)), cause, rfl⟩
  rw [List.takeWhile_cons_of_pos (by rw [creates_eq_false_of_error]; rfl)]
  exact List.mem_cons_self ..

/-! ## The survey -/

/-- Whether a generation is linked by the parent of a chain to which it belongs. -/
def Linked (chains : List Chain) (tables : Tables) (id : ChainId) : Prop :=
  ∃ chain ∈ chains, ∃ generation < Generation.limit,
    id = chain.generationId generation ∧ chain.link generation ∈ rulesOf tables chain.parentId

/-- Tables that hold the parents of chains, in which each generation that stands is linked, or is one of some loose
ones, or was to be removed. -/
structure Surveyed (chains : List Chain) (loose : List ChainId) (journal : Journal) : Prop where
  noDangling : journal.tables.NoDangling
  parents : ∀ chain ∈ chains, journal.tables.hasChain chain.parentId = true
  apart : ∀ chain ∈ chains, ∀ other ∈ chains, ∀ generation, other.parentId ≠ chain.generationId generation
  standing : ∀ chain ∈ chains, ∀ generation,
    stands journal.history (chain.generationId generation) = journal.tables.hasChain (chain.generationId generation)
  each : ∀ chain ∈ chains, ∀ generation, stands journal.history (chain.generationId generation) = true →
    chain.generationId generation ∈ loose ∨ Linked chains journal.tables (chain.generationId generation) ∨
      Balked journal.history (chain.generationId generation)

/-- Tables are surveyed before anything is called if they hold the parents and no generation. -/
theorem surveyed_start (hnoDangling : tables.NoDangling)
    (hparents : ∀ chain ∈ chains, tables.hasChain chain.parentId = true)
    (habsent : ∀ chain ∈ chains, ∀ generation, tables.rules? (chain.generationId generation) = none) :
    Surveyed chains [] ⟨tables, []⟩ where
  noDangling := hnoDangling
  parents := hparents
  apart := by
    intro chain hchain other hother generation heq
    have hparent := hparents other hother
    rw [heq, Tables.hasChain, habsent chain hchain generation] at hparent
    cases hparent
  standing := by
    intro chain hchain generation
    rw [Tables.hasChain, habsent chain hchain generation]
    rfl
  each := by
    intro chain hchain generation hstands
    cases hstands

namespace Surveyed

/-- A call leaves surveyed tables if it deletes no parent, adds nothing but a loose chain, and takes no link away but
that of a loose one. -/
theorem of_step (h : Surveyed chains loose before) (hstep : Journal.Step set before call reply after)
    (hparent : ∀ chain ∈ chains, call ≠ ⟨chain.parentId, .deleteChain⟩)
    (hloose : ∀ id ∈ loose, id ∈ counted)
    (hadded : call.operation = .newChain → (∃ cause, reply = .error cause) ∨ call.chain ∈ counted)
    (hlinked : ∀ id, Linked chains before.tables id → id ∈ counted ∨ Linked chains after.tables id) :
    Surveyed chains counted after := by
  have hstanding (chain : Chain) (hchain : chain ∈ chains) (generation : Nat) :=
    stands_of_step hstep (h.standing chain hchain generation)
  refine ⟨?_, ?_, h.apart, hstanding, ?_⟩
  · rcases hstep.cases with ⟨cause, -, rfl⟩ | ⟨lines, tables, -, hdone, rfl⟩
    · exact h.noDangling
    · exact h.noDangling.apply hdone
  · intro chain hchain
    rcases hstep.cases with ⟨cause, -, rfl⟩ | ⟨lines, tables, -, hdone, rfl⟩
    · exact h.parents chain hchain
    · rw [hasChain_of_apply hdone, if_neg (hparent chain hchain), h.parents chain hchain, ite_self]
  · intro chain hchain generation hstands
    by_cases hcounted : chain.generationId generation ∈ counted
    · exact .inl hcounted
    -- the call has not added it, so it stood before
    have hcreates : Entry.creates ⟨set, call, reply⟩ (chain.generationId generation) = false := by
      by_cases hnew : call.operation = .newChain
      case neg => exact creates_eq_false_of_operation hnew
      case pos =>
      rcases hadded hnew with ⟨cause, rfl⟩ | hmem
      · exact creates_eq_false_of_error
      · apply creates_eq_false_of_chain
        rintro heq
        rw [heq] at hcounted
        exact hcounted hmem
    rw [hstep.2] at hstands ⊢
    rcases h.each chain hchain generation (stands_of_cons hstands hcreates) with hmem | hlink | hbalked
    · exact absurd (hloose _ hmem) hcounted
    · exact .inr (.inl ((hlinked _ hlink).resolve_left hcounted))
    · exact .inr (.inr (hbalked.cons hcreates))

/-- A loose generation need not be counted any more if it is gone, or linked, or was to be removed. -/
theorem settle (h : Surveyed chains [id] journal)
    (hid : stands journal.history id = true → Linked chains journal.tables id ∨ Balked journal.history id) :
    Surveyed chains [] journal where
  noDangling := h.noDangling
  parents := h.parents
  apart := h.apart
  standing := h.standing
  each := by
    intro chain hchain generation hstands
    rcases h.each chain hchain generation hstands with hmem | hlinked
    · rw [List.mem_singleton.mp hmem] at hstands ⊢
      exact .inr (hid hstands)
    · exact .inr hlinked

/-- A call that changes nothing leaves surveyed tables. -/
theorem of_same (h : Surveyed chains loose before) (hstep : Journal.Step set before call reply after)
    (hsame : after.tables = before.tables) (hnew : call.operation = .newChain → ∃ cause, reply = .error cause)
    (hdelete : call.operation ≠ .deleteChain) : Surveyed chains loose after := by
  refine h.of_step hstep ?_ (fun _ hid => hid) (fun heq => .inl (hnew heq)) ?_
  · intro chain _ heq
    exact hdelete (congrArg Call.operation heq)
  · intro id hid
    rw [hsame]
    exact .inr hid

/-! ### Calls on a generation -/

theorem of_generation (h : Surveyed chains loose before) (hset : set.chain ∈ chains)
    (hloose : ∀ id ∈ loose, id = set.chain.generationId generation) {operation : Operation}
    (hstep : Journal.Step set before ⟨set.chain.generationId generation, operation⟩ reply after) :
    Surveyed chains [set.chain.generationId generation] after := by
  refine h.of_step hstep ?_ ?_ (fun _ => .inr (List.mem_singleton_self _)) ?_
  · intro chain hchain heq
    exact h.apart set.chain hset chain hchain generation (congrArg Call.chain heq).symm
  · intro id hid
    exact List.mem_singleton.mpr (hloose id hid)
  · rintro id ⟨chain, hchain, other, hlimit, rfl, hlink⟩
    right
    refine ⟨chain, hchain, other, hlimit, rfl, ?_⟩
    rw [rulesOf, hstep.sameBut _ (h.apart set.chain hset chain hchain generation)]
    exact hlink

/-- A loose generation whose removal fails was to be removed. -/
theorem of_balks (h : Surveyed chains loose before) (hset : set.chain ∈ chains)
    (hloose : ∀ id ∈ loose, id = set.chain.generationId generation) {operation : Operation} {cause : Filter.Error}
    (hremoval : operation = .clearChain ∨ operation = .deleteChain)
    (hstep : Journal.Step set before ⟨set.chain.generationId generation, operation⟩ (.error cause) after) :
    Surveyed chains [] after := by
  refine (h.of_generation hset hloose hstep).settle fun _ => .inr ?_
  rw [hstep.2]
  exact balked_of_balks hremoval set before.history _

/-- A loose generation is deleted, or was to be. -/
theorem of_deleteChain (h : Surveyed chains loose before) (hset : set.chain ∈ chains)
    (hloose : ∀ id ∈ loose, id = set.chain.generationId generation)
    (hstep : Journal.Step set before ⟨set.chain.generationId generation, .deleteChain⟩ reply after) :
    Surveyed chains [] after := by
  cases reply with
  | error cause => exact h.of_balks hset hloose (.inr rfl) hstep
  | ok lines =>
    refine (h.of_generation hset hloose hstep).settle fun hstands => ?_
    rw [hstep.2, stands_cons_of_deletes (creates_eq_false_of_operation Operation.noConfusion)
      (by simp [Entry.deletes, Except.isOk, Except.toBool])] at hstands
    cases hstands

/-! ### Calls on the parent -/

/-- A loose generation is linked, unless that fails. -/
theorem of_link (h : Surveyed chains [set.chain.generationId generation] before) (hset : set.chain ∈ chains)
    (hlimit : generation < Generation.limit)
    (hstep : Journal.Step set before ⟨set.chain.parentId, .bulkInsert 1 [set.chain.link generation]⟩ reply after) :
    (∃ cause, reply = .error cause ∧ Surveyed chains [set.chain.generationId generation] after) ∨
      ∃ lines, reply = .ok lines ∧ Surveyed chains [] after := by
  have hparent (chain : Chain) (_ : chain ∈ chains) :
      (⟨set.chain.parentId, .bulkInsert 1 [set.chain.link generation]⟩ : Call) ≠ ⟨chain.parentId, .deleteChain⟩ :=
    fun heq => nomatch congrArg Call.operation heq
  rcases hstep.cases with ⟨cause, rfl, hafter⟩ | ⟨lines, tables, rfl, hdone, hafter⟩
  · exact .inl ⟨cause, rfl, h.of_same hstep (by rw [hafter]) (fun heq => nomatch heq) Operation.noConfusion⟩
  obtain ⟨-, ⟨rules, hrules⟩, -, rfl⟩ := Tables.apply_bulkInsert_eq_ok.mp hdone
  have hinsert : Tables.insertAt 1 [set.chain.link generation] rules = set.chain.link generation :: rules := by
    simp [Tables.insertAt]
  have hafterRules (id : ChainId) : rulesOf after.tables id =
      if id = set.chain.parentId then set.chain.link generation :: rules else rulesOf before.tables id := by
    rw [hafter, rulesOf_modify hrules, hinsert]
  refine .inr ⟨lines, rfl, Surveyed.settle (h.of_step hstep hparent (fun _ hid => hid) (fun heq => nomatch heq) ?_) ?_⟩
  · rintro id ⟨chain, hchain, other, hother, rfl, hlink⟩
    right
    refine ⟨chain, hchain, other, hother, rfl, ?_⟩
    rw [hafterRules]
    split
    next heq =>
      rw [heq, rulesOf_of_rules? hrules] at hlink
      exact List.mem_cons_of_mem _ hlink
    next => exact hlink
  · intro _
    left
    refine ⟨set.chain, hset, generation, hlimit, rfl, ?_⟩
    rw [hafterRules, if_pos rfl]
    exact List.mem_cons_self ..

/-- A generation is loose once its link has been taken out. -/
theorem of_unlink (h : Surveyed chains [] before)
    (hstep : Journal.Step set before ⟨set.chain.parentId, .delete (set.chain.link generation)⟩ reply after) :
    (∃ cause, reply = .error cause ∧ Surveyed chains [] after) ∨
      ∃ lines, reply = .ok lines ∧ Surveyed chains [set.chain.generationId generation] after := by
  rcases hstep.cases with ⟨cause, rfl, hafter⟩ | ⟨lines, tables, rfl, hdone, hafter⟩
  · exact .inl ⟨cause, rfl, h.of_same hstep (by rw [hafter]) (fun heq => nomatch heq) Operation.noConfusion⟩
  obtain ⟨⟨rules, hrules, -⟩, -, rfl⟩ := Tables.apply_delete_eq_ok.mp hdone
  refine .inr ⟨lines, rfl, h.of_step hstep ?_ (by simp) (fun heq => nomatch heq) ?_⟩
  · intro chain _ heq
    exact nomatch congrArg Call.operation heq
  · rintro id ⟨chain, hchain, other, hother, rfl, hlink⟩
    by_cases hsame : chain.generationId other = set.chain.generationId generation
    · exact .inl (List.mem_singleton.mpr hsame)
    right
    refine ⟨chain, hchain, other, hother, rfl, ?_⟩
    rw [hafter, rulesOf_modify hrules]
    split
    next heq =>
      rw [heq, rulesOf_of_rules? hrules] at hlink
      refine (List.mem_erase_of_ne ?_).mpr hlink
      -- links of one name in the parent's table belong to the same generation
      intro hrule
      apply hsame
      have hname : some (Generation.name chain.stem other) = some (Generation.name set.chain.stem generation) := by
        rw [← Generation.target?_jumpTo, ← Generation.target?_jumpTo]
        exact congrArg Rule.target? hrule
      rw [Chain.generationId, Chain.generationId, Option.some.inj hname]
      exact congrArg (ChainId.mk · _) (congrArg ChainId.table heq)
    next => exact hlink

end Surveyed

/-! ## Putting a rule set into force -/

variable {found : List Nat}

theorem discard_surveyed (hset : set.chain ∈ chains)
    (h : Surveyed chains [set.chain.generationId generation] journal) (error : EnforceError) :
    (discard (set.chain.generationId generation) error).Ensures (Journal.Step set) (fun _ => True)
      (fun _ after => Surveyed chains [] after) journal := by
  intro reply cleared hclear
  refine ⟨trivial, ?_⟩
  have hcleared := h.of_generation hset (fun _ hid => List.mem_singleton.mp hid) hclear
  intro reply deleted hdelete
  exact ⟨trivial, hcleared.of_deleteChain hset (fun _ hid => List.mem_singleton.mp hid) hdelete⟩

theorem removeAll_surveyed (hset : set.chain ∈ chains) (h : Surveyed chains [] journal) :
    (removeAll set.chain found).Ensures (Journal.Step set) (fun _ => True) (fun _ after => Surveyed chains [] after)
      journal := by
  induction found generalizing journal with
  | nil => exact h
  | cons old rest ih =>
    rw [removeAll_cons]
    intro reply unlinked hunlink
    refine ⟨trivial, ?_⟩
    rcases h.of_unlink hunlink with ⟨cause, rfl, hkept⟩ | ⟨lines, rfl, hunlinked⟩
    · exact hkept
    intro reply cleared hclear
    refine ⟨trivial, ?_⟩
    cases reply with
    | error cause => exact hunlinked.of_balks hset (fun _ hid => List.mem_singleton.mp hid) (.inl rfl) hclear
    | ok _ =>
      have hcleared := hunlinked.of_generation hset (fun _ hid => List.mem_singleton.mp hid) hclear
      intro reply deleted hdelete
      refine ⟨trivial, ?_⟩
      have hdeleted := hcleared.of_deleteChain hset (fun _ hid => List.mem_singleton.mp hid) hdelete
      cases reply with
      | error cause => exact hdeleted
      | ok _ => exact ih hdeleted

theorem linkFilled_surveyed (hset : set.chain ∈ chains) (hlimit : generation < Generation.limit)
    (h : Surveyed chains [set.chain.generationId generation] journal) :
    (linkFilled set found generation).Ensures (Journal.Step set) (fun _ => True)
      (fun _ after => Surveyed chains [] after) journal := by
  intro reply linked hlink
  refine ⟨trivial, ?_⟩
  rcases h.of_link hset hlimit hlink with ⟨cause, rfl, hkept⟩ | ⟨lines, rfl, hlinked⟩
  · exact discard_surveyed hset hkept _
  · exact removeAll_surveyed hset hlinked

theorem fillAdded_surveyed (hset : set.chain ∈ chains) (hlimit : generation < Generation.limit)
    (h : Surveyed chains [set.chain.generationId generation] journal) :
    (fillAdded set found generation).Ensures (Journal.Step set) (fun _ => True)
      (fun _ after => Surveyed chains [] after) journal := by
  intro reply filled hfill
  refine ⟨trivial, ?_⟩
  have hfilled := h.of_generation hset (fun _ hid => List.mem_singleton.mp hid) hfill
  cases reply with
  | error cause => exact discard_surveyed hset hfilled _
  | ok _ => exact linkFilled_surveyed hset hlimit hfilled

theorem replace_surveyed (hset : set.chain ∈ chains) (h : Surveyed chains [] journal) (now : Nat) :
    (replace set found now).Ensures (Journal.Step set) (fun after => TenDigits after.history → True)
      (fun _ after => TenDigits after.history → Surveyed chains [] after) journal := by
  rw [replace_eq]
  intro reply created hcreate
  refine ⟨fun _ => trivial, ?_⟩
  cases reply with
  | error cause =>
    intro _
    refine h.of_same hcreate ?_ (fun _ => ⟨cause, rfl⟩) Operation.noConfusion
    rcases hcreate.cases with ⟨cause, -, rfl⟩ | ⟨lines, tables, hreply, -, -⟩
    · rfl
    · cases hreply
  | ok lines =>
    have hcreated := h.of_generation hset (by simp) hcreate
    by_cases hdigits : TenDigits created.history
    case neg => exact ensures_of_not_tenDigits _ hdigits
    case pos =>
    have hlimit : Generation.next found now < Generation.limit := by
      rw [hcreate.2] at hdigits
      exact hdigits _ (List.mem_cons_self ..) _ rfl
    refine (fillAdded_surveyed hset hlimit hcreated).mono ?_ ?_
    · exact fun _ _ _ => trivial
    · exact fun _ _ hsurveyed _ => hsurveyed

/-- Putting a rule set into force leaves surveyed tables, as long as generations have ten digits. -/
theorem enforce_surveyed (hset : set.chain ∈ chains) (h : TenDigits journal.history → Surveyed chains [] journal) :
    (enforce set).Ensures (Journal.Step set) (fun after => TenDigits after.history → True)
      (fun _ after => TenDigits after.history → Surveyed chains [] after) journal := by
  by_cases hdigits : TenDigits journal.history
  case neg => exact ensures_of_not_tenDigits _ hdigits
  case pos =>
  rw [enforce_eq]
  intro reply listed hlist
  refine ⟨fun _ => trivial, ?_⟩
  have hlisted : Surveyed chains [] listed := by
    refine (h hdigits).of_same hlist ?_ (fun heq => nomatch heq) Operation.noConfusion
    rcases hlist.cases with ⟨cause, -, rfl⟩ | ⟨lines, tables, -, hdone, rfl⟩
    · rfl
    · obtain ⟨-, -, -, rfl⟩ := Tables.apply_list_eq_ok.mp hdone
      rfl
  cases reply with
  | error cause => exact fun _ => hlisted
  | ok lines => exact fun now => replace_surveyed hset hlisted now

/-! ## The name that is taken next -/

/-- Whether a generation of a chain is linked where it is not looked for: by the parent of another chain that has the same
stem in the same table, or by the chain's own parent, where blanks in the stem or a name in the parent's name can hide
it. -/
def LinkedElsewhere (chains : List Chain) (tables : Tables) (chain : Chain) (generation : Nat) : Prop :=
  ∃ other ∈ chains, other.table = chain.table ∧ other.stem = chain.stem ∧
    chain.link generation ∈ rulesOf tables other.parentId ∧
    (other = chain → ¬ Generation.BlankFree chain.stem ∨
      Generation.inWords? chain.stem.toList chain.parent.toList ≠ none)

/-- A link that is found is older than the generation that is built next. -/
theorem link_next_notMem (hstem : Generation.BlankFree chain.stem)
    (hparent : Generation.inWords? chain.stem.toList chain.parent.toList = none) {now : Nat}
    (hlimit : nextIn tables chain now < Generation.limit) :
    chain.link (nextIn tables chain now) ∉ rulesOf tables chain.parentId := by
  intro hlink
  have hfound : nextIn tables chain now ∈ foundIn tables chain :=
    Generation.mem_inListing_of_jumpTo hstem hparent hlimit hlink
  exact Nat.lt_irrefl _ (Generation.lt_next (Generation.pairwise_inListing _ _) now _ hfound)

/-- The generation that is built next for a chain exists already if and only if it is linked elsewhere or was to be
removed. -/
theorem Surveyed.hasChain_next_iff (h : Surveyed chains [] journal) (hchain : chain ∈ chains) {now : Nat}
    (hlimit : nextIn journal.tables chain now < Generation.limit) :
    journal.tables.hasChain (chain.generationId (nextIn journal.tables chain now)) = true ↔
      LinkedElsewhere chains journal.tables chain (nextIn journal.tables chain now) ∨
        Abandoned journal.history (chain.generationId (nextIn journal.tables chain now)) := by
  constructor
  · intro hexists
    rw [← h.standing chain hchain] at hexists
    rcases h.each chain hchain _ hexists with hloose | ⟨other, hother, generation, hgeneration, hid, hlink⟩ | hbalked
    · cases hloose
    · left
      have hname : Generation.name chain.stem (nextIn journal.tables chain now) = Generation.name other.stem generation :=
        congrArg ChainId.name hid
      -- names of ten digits tell stems apart
      have hstem := (Generation.name_injective hlimit hgeneration hname).1.symm
      rw [Chain.link, ← hname] at hlink
      refine ⟨other, hother, (congrArg ChainId.table hid).symm, hstem, hlink, ?_⟩
      rintro rfl
      by_contra hseen
      obtain ⟨hfree, hparent⟩ := not_or.mp hseen
      exact link_next_notMem (not_not.mp hfree) (not_not.mp hparent) hlimit hlink
    · exact .inr ⟨hexists, hbalked⟩
  · rintro (⟨other, hother, htable, -, hlink, -⟩ | ⟨hstands, -⟩)
    · obtain ⟨rules, hrules⟩ := Tables.hasChain_iff.mp (h.parents other hother)
      rw [rulesOf_of_rules? hrules] at hlink
      have hload := Tables.canLoad_iff.mp (h.noDangling _ rules hrules _ hlink) _ (Generation.target?_jumpTo _)
      rw [show other.parentId.table = chain.table from htable] at hload
      exact hload.resolve_left (Generation.name_notMem_standardTargets _ _)
    · rw [← h.standing chain hchain]
      exact hstands

end OverlayHost.Enforcer
