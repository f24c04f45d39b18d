import OverlayHost.Proofs.Enforcer.Targets
import OverlayHost.Proofs.Enforcer.Links

/-!
# What is taken for a link

Before a rule set is put into force, the generations that the parent links are read off its listing. In each rule the
first word that is the stem and ten digits counts, whatever the word is for. So a rule that only mentions a generation,
as in a comment, is taken for its link and may hide a link that stands behind it in the same rule, and a generation with
more digits is not seen. `found_exact_iff` says that what is found is what the parent jumps to just if nothing of that
is in the parent; `mention_taken_for_link` shows both faults, and what comes of them.
-/

set_option autoImplicit false

namespace OverlayHost.Enforcer

open OverlayHost.Filter (Tables Kind Memory)
open OverlayHost.Generation (BlankFree)

/-- Whether some rule jumps to a generation of a stem. -/
def Jumped (stem : String) (rules : List Rule) (generation : Nat) : Prop :=
  ∃ rule ∈ rules, rule.target? = some (Generation.name stem generation)

/-- Whether a generation of a stem is the first that the words of some rule name. -/
def NamedFirst (stem : String) (rules : List Rule) (generation : Nat) : Prop :=
  ∃ rule ∈ rules, Generation.namedFirst? stem rule = some generation

instance (stem : String) (rules : List Rule) (generation : Nat) : Decidable (Jumped stem rules generation) :=
  inferInstanceAs (Decidable (∃ rule ∈ rules, rule.target? = some (Generation.name stem generation)))

variable {chain : Chain} {tables : Tables} {rules : List Rule}

/-- The name of a parent that is no generation's name mentions none, as it is one word. -/
theorem inWords?_parent (hparent : BlankFree chain.parent) (hname : Generation.ofName? chain.stem chain.parent = none) :
    Generation.inWords? chain.stem.toList chain.parent.toList = none := by
  rw [Generation.inWords?_of_blank_free _ hparent]
  exact hname

theorem mem_foundIn_iff (hrules : tables.rules? chain.parentId = some rules) (hstem : BlankFree chain.stem)
    (hparent : BlankFree chain.parent) (hname : Generation.ofName? chain.stem chain.parent = none) (generation : Nat) :
    generation ∈ foundIn tables chain ↔ NamedFirst chain.stem rules generation := by
  rw [foundIn, rulesOf_of_rules? hrules]
  exact Generation.mem_inListing_iff_namedFirst? hstem (inWords?_parent hparent hname) rules generation

theorem mem_foundIn_of_link (hrules : tables.rules? chain.parentId = some rules) (hstem : BlankFree chain.stem)
    (hparent : BlankFree chain.parent) (hname : Generation.ofName? chain.stem chain.parent = none) {generation : Nat}
    (hlimit : generation < Generation.limit) (hlink : chain.link generation ∈ rules) :
    generation ∈ foundIn tables chain := by
  rw [foundIn, rulesOf_of_rules? hrules]
  exact Generation.mem_inListing_of_jumpTo hstem (inWords?_parent hparent hname) hlimit hlink

/-- If the parent can be listed, what is found in its listing is replaced. -/
theorem run_enforce_of_rules? {memory : Memory} {set : RuleSet} (hlist : .list ∉ memory.pending)
    (hrules : memory.tables.rules? set.chain.parentId = some rules) (now : Nat) :
    (enforce set).run (Memory.host now) memory = (replace set (foundIn memory.tables set.chain) now).run (Memory.host now)
      (memory.perform ⟨set.chain.parentId, .list⟩).2 := by
  have happly : memory.tables.apply ⟨set.chain.parentId, .list⟩ =
      .ok (Tables.listing set.chain.parent rules, memory.tables) :=
    Tables.apply_list_eq_ok.mpr ⟨rules, hrules, rfl, rfl⟩
  have hreply := ((memory.perform_answers ⟨set.chain.parentId, .list⟩).eq_of_apply hlist happly).1
  rw [foundIn, rulesOf_of_rules? hrules]
  exact run_enforce (Memory.host now) set memory hreply

/-- The generations that are found, and then replaced, are those that the rules of the parent name first; a chain's own
link with ten digits is among them. They are those that the parent jumps to just if every generation that a rule names
first is jumped to, and every one that is jumped to has ten digits and is named first by a rule. -/
theorem found_exact_iff (memory : Memory) (set : RuleSet) (now : Nat) {rules : List Rule}
    (hrules : memory.tables.rules? set.chain.parentId = some rules) (hlist : .list ∉ memory.pending)
    (hstem : BlankFree set.chain.stem) (hparent : BlankFree set.chain.parent)
    (hname : Generation.ofName? set.chain.stem set.chain.parent = none) :
    (enforce set).run (Memory.host now) memory = (replace set (foundIn memory.tables set.chain) now).run
      (Memory.host now) (memory.perform ⟨set.chain.parentId, .list⟩).2 ∧
    (∀ generation, generation ∈ foundIn memory.tables set.chain ↔ NamedFirst set.chain.stem rules generation) ∧
    (∀ generation < Generation.limit, set.chain.link generation ∈ rules →
      generation ∈ foundIn memory.tables set.chain) ∧
    ((∀ generation, generation ∈ foundIn memory.tables set.chain ↔ Jumped set.chain.stem rules generation) ↔
      (∀ generation, NamedFirst set.chain.stem rules generation → Jumped set.chain.stem rules generation) ∧
      ∀ generation, Jumped set.chain.stem rules generation →
        generation < Generation.limit ∧ NamedFirst set.chain.stem rules generation) := by
  have hfound := mem_foundIn_iff hrules hstem hparent hname
  refine ⟨run_enforce_of_rules? hlist hrules now, hfound,
    fun generation hlimit => mem_foundIn_of_link hrules hstem hparent hname hlimit, ?_⟩
  constructor
  · intro hexact
    refine ⟨fun generation hnamed => (hexact generation).mp ((hfound generation).mpr hnamed), ?_⟩
    intro generation hjumped
    have hmem := (hexact generation).mpr hjumped
    exact ⟨Generation.lt_limit_of_mem_inListing hstem hmem, (hfound generation).mp hmem⟩
  · rintro ⟨hlinks, hseen⟩ generation
    rw [hfound]
    exact ⟨hlinks generation, fun hjumped => (hseen generation hjumped).2⟩

/-- A rule of other software that mentions a generation in a comment. -/
def mention : Rule := ⟨["-m", "comment", "--comment", "below p-1700000000", "-j", "ACCEPT"]⟩

/-- A filter with that generation in force, and the rule below its link. -/
def mentionedBelow : Memory :=
  afterDeeds [.enforce ⟨⟨"filter", "FORWARD", "p-"⟩, [⟨["-j", "ACCEPT"]⟩]⟩ [] 1700000000,
    .call ⟨⟨"filter", "FORWARD"⟩, .bulkAppend [mention]⟩]

/-- The generation is found, as it is jumped to, and no other. -/
theorem found_exact_beside_mention :
    mentionedBelow.tables.rules? ⟨"filter", "FORWARD"⟩ = some [Rule.jumpTo "p-1700000000", mention] ∧
      .list ∉ mentionedBelow.pending ∧
      BlankFree "p-" ∧ BlankFree "FORWARD" ∧ Generation.ofName? "p-" "FORWARD" = none ∧
      ∀ generation, generation ∈ foundIn mentionedBelow.tables ⟨"filter", "FORWARD", "p-"⟩ ↔
        Jumped "p-" [Rule.jumpTo "p-1700000000", mention] generation := by
  have hrules : mentionedBelow.tables.rules? ⟨"filter", "FORWARD"⟩ = some [Rule.jumpTo "p-1700000000", mention] := by
    decide
  have hlist : .list ∉ mentionedBelow.pending := by decide
  have hstem : BlankFree "p-" := by decide
  have hparent : BlankFree "FORWARD" := by decide
  have hname : Generation.ofName? "p-" "FORWARD" = none := by decide
  obtain ⟨-, -, -, hexact⟩ := found_exact_iff mentionedBelow ⟨⟨"filter", "FORWARD", "p-"⟩, []⟩ 1700000001 hrules hlist
    hstem hparent hname
  have hfirst : ∀ rule ∈ [Rule.jumpTo "p-1700000000", mention],
      Generation.namedFirst? "p-" rule = some 1700000000 := by decide
  have htarget : ∀ rule ∈ [Rule.jumpTo "p-1700000000", mention],
      rule.target? = some (Generation.name "p-" 1700000000) ∨ rule.target? = some "ACCEPT" := by decide
  have hjumped : Jumped "p-" [Rule.jumpTo "p-1700000000", mention] 1700000000 := by decide
  refine ⟨hrules, hlist, hstem, hparent, hname, hexact.mpr ⟨?_, ?_⟩⟩
  · rintro generation ⟨rule, hrule, hnamed⟩
    rw [hfirst rule hrule] at hnamed
    rw [← Option.some.inj hnamed]
    exact hjumped
  · rintro generation ⟨rule, hrule, hjump⟩
    rcases htarget rule hrule with htarget | htarget
    · rw [htarget, Option.some_inj, Generation.name_inj] at hjump
      rw [← hjump]
      exact ⟨by decide, rule, hrule, hfirst rule hrule⟩
    · rw [htarget, Option.some_inj] at hjump
      have hstandard := Generation.name_notMem_standardTargets "p-" generation
      rw [← hjump] at hstandard
      exact absurd (by decide) hstandard

/-- A rule of other software with a comment that has the name of a generation, though there is none. -/
def mentionedOnly : Memory :=
  afterDeeds [.call ⟨⟨"filter", "FORWARD"⟩,
    .bulkAppend [⟨["-m", "comment", "--comment", "p-1700000000", "-j", "ACCEPT"]⟩]⟩]

/-- A generation of a chain in force, of a clock with eleven digits. -/
def linkedLate : Memory := afterDeeds [.enforce ⟨⟨"filter", "FORWARD", "p-"⟩, [⟨["-j", "ACCEPT"]⟩]⟩ [] 10000000000]

/-- The comment is taken for a link, and putting a rule set into force fails when the link is to be removed. The link of
the generation with eleven digits is not found, and putting a rule set into force fails as its generation is there
already. -/
theorem mention_taken_for_link :
    BlankFree "filter" ∧ BlankFree "FORWARD" ∧ BlankFree "p-" ∧ Generation.ofName? "p-" "FORWARD" = none ∧
      (foundIn mentionedOnly.tables ⟨"filter", "FORWARD", "p-"⟩ = [1700000000] ∧
        ¬ Jumped "p-" (rulesOf mentionedOnly.tables ⟨"filter", "FORWARD"⟩) 1700000000 ∧
        ((enforce ⟨⟨"filter", "FORWARD", "p-"⟩, [⟨["-j", "ACCEPT"]⟩]⟩).run (Memory.host 1700000000) mentionedOnly).1 =
          .error (.cleanup Tables.Refusal.noSuchRule.toError)) ∧
      foundIn linkedLate.tables ⟨"filter", "FORWARD", "p-"⟩ = [] ∧
      Jumped "p-" (rulesOf linkedLate.tables ⟨"filter", "FORWARD"⟩) 10000000000 ∧
      ((enforce ⟨⟨"filter", "FORWARD", "p-"⟩, [⟨["-j", "DROP"]⟩]⟩).run (Memory.host 10000000000) linkedLate).1 =
        .error (.createChain Tables.Refusal.chainExists.toError) := by
  refine ⟨by decide, by decide, by decide, by decide, ?_, ?_⟩
  · decide
  · decide

end OverlayHost.Enforcer
