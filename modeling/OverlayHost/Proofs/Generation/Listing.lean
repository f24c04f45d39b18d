import OverlayHost.Filter.Tables
import OverlayHost.Proofs.Generation.Name
import Mathlib.Data.List.Sort
import Mathlib.Data.List.TakeWhile

/-!
# Generations in a listing

A stem without blanks is found in a line exactly where a whole word is the stem and ten digits. So the lines that
describe a chain name the generations that its rules jump to, provided that the chain's own name and its other rules
mention none. The list of generations found is ascending, and the next generation is newer than all of them.
-/

set_option autoImplicit false

namespace OverlayHost.Generation

/-! ## Words -/

/-- Whether a list is empty or starts with a blank, so that a word ends before it. -/
def EndsWord (rest : List Char) : Prop := ∀ c, rest.head? = some c → Text.isBlank c = true

theorem takeWhile_word {word rest : List Char} (hword : ∀ c ∈ word, Text.isBlank c = false)
    (hrest : EndsWord rest) : (word ++ rest).takeWhile (fun c => !Text.isBlank c) = word := by
  rw [List.takeWhile_append_of_pos]
  · cases rest with
    | nil => simp
    | cons c rest =>
      have hblank := hrest c rfl
      simp [hblank]
  · intro c hc
    simp [hword c hc]

theorem word_unique {word other rest tail : List Char} (hword : ∀ c ∈ word, Text.isBlank c = false)
    (hother : ∀ c ∈ other, Text.isBlank c = false) (hrest : EndsWord rest) (htail : EndsWord tail)
    (heq : word ++ rest = other ++ tail) : word = other := by
  rw [← takeWhile_word hword hrest, heq, takeWhile_word hother htail]

theorem blank_free_append_stamp {stem stamp : List Char} (hstem : ∀ c ∈ stem, Text.isBlank c = false)
    (hstamp : isStamp stamp = true) : ∀ c ∈ stem ++ stamp, Text.isBlank c = false := by
  intro c hc
  rcases List.mem_append.mp hc with hc | hc
  · exact hstem c hc
  · exact isBlank_of_isDigit (isDigit_of_isStamp hstamp c hc)

/-- A line starts with a name if it starts with the stem and ten digits, and a word ends there. -/
theorem atStart?_eq_some_iff {stem line : List Char} {generation : Nat} :
    atStart? stem line = some generation ↔ ∃ stamp rest, isStamp stamp = true ∧ EndsWord rest ∧
      line = stem ++ stamp ++ rest ∧ generation = Text.decimalValue stamp := by
  constructor
  · intro h
    unfold atStart? at h
    split at h
    case isFalse => cases h
    case isTrue hprefix =>
    obtain ⟨after, rfl⟩ := List.isPrefixOf_iff_prefix.mp hprefix
    rw [List.drop_left] at h
    dsimp only at h
    split at h
    case isFalse => cases h
    case isTrue hstamp =>
    refine ⟨after.take 10, after.drop 10, hstamp, ?_, ?_, ?_⟩
    · intro c hc
      split at h
      next hnil => rw [hnil] at hc; cases hc
      next next rest hcons =>
        rw [hcons] at hc
        obtain rfl : next = c := Option.some.inj hc
        by_contra hblank
        simp [hblank] at h
    · rw [List.append_assoc, List.take_append_drop]
    · split at h
      next => exact (Option.some.inj h).symm
      next =>
        split at h
        next => exact (Option.some.inj h).symm
        next => cases h
  · rintro ⟨stamp, rest, hstamp, hrest, rfl, rfl⟩
    have hprefix : stem.isPrefixOf (stem ++ stamp ++ rest) = true := by
      rw [List.append_assoc]
      exact List.isPrefixOf_iff_prefix.mpr (List.prefix_append _ _)
    have hlength := length_of_isStamp hstamp
    have htake : (stamp ++ rest).take 10 = stamp := by rw [← hlength, List.take_left]
    have hdrop : (stamp ++ rest).drop 10 = rest := by rw [← hlength, List.drop_left]
    have hdigits : stamp.all Char.isDigit = true := List.all_eq_true.mpr (isDigit_of_isStamp hstamp)
    unfold atStart?
    rw [if_pos hprefix, List.append_assoc, List.drop_left]
    simp only [htake, hdrop, hlength, hdigits]
    cases rest with
    | nil => rfl
    | cons c rest => simp [hrest c rfl]

/-- A name at the start of a line is the whole first word. -/
theorem atStart?_word {stem word rest : List Char} (hstem : ∀ c ∈ stem, Text.isBlank c = false)
    (hword : ∀ c ∈ word, Text.isBlank c = false) (hrest : EndsWord rest) :
    atStart? stem (word ++ rest) = ofWord? stem word := by
  apply Option.ext
  intro generation
  rw [atStart?_eq_some_iff]
  constructor
  · rintro ⟨stamp, tail, hstamp, htail, heq, rfl⟩
    have hfree := blank_free_append_stamp hstem hstamp
    rw [word_unique hword hfree hrest htail heq]
    exact ofWord?_append hstamp
  · intro h
    obtain ⟨stamp, hstamp, rfl⟩ := eq_append_of_ofWord? h
    rw [ofWord?_append hstamp] at h
    exact ⟨stamp, rest, hstamp, hrest, rfl, (Option.some.inj h).symm⟩

/-- The first generation of a stem that is a word of a text by itself. -/
def inWords? (stem text : List Char) : Option Nat :=
  (text.splitOnP Text.isBlank).findSome? (ofWord? stem)

theorem ofWord?_nil (stem : List Char) : ofWord? stem [] = none := by
  simp [ofWord?, isStamp]

theorem inWords?_nil (stem : List Char) : inWords? stem [] = none := by
  simp [inWords?, ofWord?_nil]

theorem inWords?_append_blank (stem before after : List Char) {blank : Char} (h : Text.isBlank blank = true) :
    inWords? stem (before ++ blank :: after) = (inWords? stem before).or (inWords? stem after) := by
  rw [inWords?, List.splitOnP_append_cons before after h, List.findSome?_append]
  rfl

theorem inWords?_of_blank_free (stem : List Char) {word : List Char}
    (h : ∀ c ∈ word, Text.isBlank c = false) : inWords? stem word = ofWord? stem word := by
  rw [inWords?, List.splitOnP_eq_singleton h, List.findSome?_singleton]

/-- A word of a text lies in it without a gap, the first word at its start. -/
theorem infix_of_mem_words (text : List Char) :
    ∃ first others, text.splitOnP Text.isBlank = first :: others ∧ first <+: text ∧
      ∀ word ∈ others, word <:+: text := by
  induction text with
  | nil => exact ⟨[], [], rfl, List.prefix_rfl, by simp⟩
  | cons c rest ih =>
    obtain ⟨first, others, hwords, hfirst, hothers⟩ := ih
    rw [List.splitOnP_cons_eq_if_modifyHead, hwords]
    by_cases hblank : Text.isBlank c = true
    · refine ⟨[], first :: others, by simp [hblank], List.nil_prefix, ?_⟩
      intro word hword
      rcases List.mem_cons.mp hword with rfl | hword
      · exact hfirst.isInfix.trans (List.suffix_cons c rest).isInfix
      · exact (hothers word hword).trans (List.suffix_cons c rest).isInfix
    · refine ⟨c :: first, others, by simp [hblank], List.cons_prefix_cons.mpr ⟨rfl, hfirst⟩, ?_⟩
      intro word hword
      exact (hothers word hword).trans (List.suffix_cons c rest).isInfix

theorem inWords?_eq_none {stem text : String} (h : ¬ Mentions stem text) :
    inWords? stem.toList text.toList = none := by
  by_contra hsome
  obtain ⟨generation, hfound⟩ := Option.ne_none_iff_exists'.mp hsome
  obtain ⟨word, hword, hname⟩ := List.exists_of_findSome?_eq_some hfound
  obtain ⟨stamp, hstamp, rfl⟩ := eq_append_of_ofWord? hname
  obtain ⟨first, others, hwords, hfirst, hothers⟩ := infix_of_mem_words text.toList
  rw [hwords] at hword
  apply h
  rcases List.mem_cons.mp hword with heq | hmem
  · exact ⟨stamp, hstamp, heq ▸ hfirst.isInfix⟩
  · exact ⟨stamp, hstamp, hothers _ hmem⟩

/-! ## Lines -/

theorem afterBlank?_word {stem word : List Char} (hword : ∀ c ∈ word, Text.isBlank c = false) :
    afterBlank? stem word = none := by
  induction word with
  | nil => rfl
  | cons c rest ih =>
    have hc := hword c (List.mem_cons_self ..)
    have hrest := ih fun d hd => hword d (List.mem_cons_of_mem _ hd)
    simp [afterBlank?, hc, hrest]

theorem afterBlank?_append_blank {stem word : List Char} (hword : ∀ c ∈ word, Text.isBlank c = false)
    {blank : Char} (hblank : Text.isBlank blank = true) (rest : List Char) :
    afterBlank? stem (word ++ blank :: rest) = (atStart? stem rest).or (afterBlank? stem rest) := by
  induction word with
  | nil =>
    simp only [List.nil_append, afterBlank?, hblank, if_true]
    cases atStart? stem rest <;> rfl
  | cons c word ih =>
    have hc := hword c (List.mem_cons_self ..)
    rw [List.cons_append, afterBlank?, hc]
    exact ih fun d hd => hword d (List.mem_cons_of_mem _ hd)

/-- Looking through a line from the left finds the first word that is a name. -/
theorem atStart?_or_afterBlank? {stem : List Char} (hstem : ∀ c ∈ stem, Text.isBlank c = false)
    (line : List Char) : (atStart? stem line).or (afterBlank? stem line) = inWords? stem line := by
  generalize hlength : line.length = length
  induction length using Nat.strong_induction_on generalizing line with
  | _ length ih =>
    by_cases hfree : ∀ c ∈ line, Text.isBlank c = false
    · have hends : EndsWord [] := by simp [EndsWord]
      have hstart := atStart?_word hstem hfree hends
      rw [List.append_nil] at hstart
      rw [hstart, afterBlank?_word hfree, inWords?_of_blank_free stem hfree, Option.or_none]
    · -- the line is its first word, a blank, and a shorter line
      have hsplit := List.takeWhile_append_dropWhile (p := fun c => !Text.isBlank c) (l := line)
      have hword : ∀ c ∈ line.takeWhile (fun c => !Text.isBlank c), Text.isBlank c = false := by
        intro c hc
        simpa using List.mem_takeWhile_imp hc
      cases hrest : line.dropWhile (fun c => !Text.isBlank c) with
      | nil =>
        rw [hrest, List.append_nil] at hsplit
        rw [hsplit] at hword
        exact absurd hword hfree
      | cons blank rest =>
        have hblank : Text.isBlank blank = true := by
          have hnot := List.head_dropWhile_not (fun c => !Text.isBlank c) (l := line) (by simp [hrest])
          simpa [hrest] using hnot
        rw [hrest] at hsplit
        have hshorter : rest.length < length := by
          have := congrArg List.length hsplit
          simp only [List.length_append, List.length_cons] at this
          omega
        have hends : EndsWord (blank :: rest) := by
          intro c hc
          obtain rfl : blank = c := Option.some.inj hc
          exact hblank
        rw [← hsplit, atStart?_word hstem hword hends, afterBlank?_append_blank hword hblank,
          ih rest.length hshorter rest rfl, inWords?_append_blank _ _ _ hblank,
          inWords?_of_blank_free stem hword]

theorem inLine?_eq_inWords? {stem : String} (hstem : BlankFree stem) (line : String) :
    inLine? stem line = inWords? stem.toList line.toList := by
  rw [← atStart?_or_afterBlank? hstem, inLine?]
  cases atStart? stem.toList line.toList <;> rfl

theorem inWords?_intercalate (stem : List Char) (tokens : List String) :
    inWords? stem (" ".intercalate tokens).toList = tokens.findSome? fun token => inWords? stem token.toList := by
  rw [String.toList_intercalate]
  induction tokens with
  | nil => exact inWords?_nil stem
  | cons token rest ih =>
    cases rest with
    | nil => simp
    | cons second rest =>
      have hblank : Text.isBlank ' ' = true := by decide
      have hspace : " ".toList = [' '] := by decide
      rw [List.map_cons, List.map_cons, List.intercalate_cons_cons, ← List.map_cons, hspace, List.append_assoc,
        List.singleton_append, inWords?_append_blank _ _ _ hblank, ← hspace, ih]
      cases hfirst : inWords? stem token.toList <;> simp [List.findSome?_cons, hfirst]

/-- What is found in the line that describes a rule of a chain: what the chain's name mentions, or else its tokens. -/
theorem inLine?_rule {stem : String} (hstem : BlankFree stem) (chain : String) (rule : Rule) :
    inLine? stem s!"-A {chain} {rule.render}" = (inWords? stem.toList chain.toList).or
      (rule.tokens.findSome? fun token => inWords? stem.toList token.toList) := by
  have hblank : Text.isBlank ' ' = true := by decide
  have hline : (s!"-A {chain} {rule.render}").toList =
      "-A".toList ++ ' ' :: (chain.toList ++ ' ' :: rule.render.toList) := by
    simp [toString]
  rw [inLine?_eq_inWords? hstem, hline, inWords?_append_blank _ _ _ hblank, inWords?_append_blank _ _ _ hblank,
    inWords?_eq_none (not_mentions_of_short stem (by decide)), Option.none_or, Rule.render, inWords?_intercalate]

/-- The generation of a stem that the words of a rule name first, whatever the words are for. -/
def namedFirst? (stem : String) (rule : Rule) : Option Nat := inWords? stem.toList rule.render.toList

theorem inLine?_eq_namedFirst? {stem chain : String} (hstem : BlankFree stem)
    (hchain : inWords? stem.toList chain.toList = none) (rule : Rule) :
    inLine? stem s!"-A {chain} {rule.render}" = namedFirst? stem rule := by
  rw [inLine?_rule hstem, hchain, Option.none_or, namedFirst?, Rule.render, inWords?_intercalate]

/-- What is found in the line that names a chain is what the chain's name mentions. -/
theorem inLine?_header {stem : String} (hstem : BlankFree stem) (chain : String) :
    inLine? stem s!"-P {chain} ACCEPT" = inWords? stem.toList chain.toList ∧
      inLine? stem s!"-N {chain}" = inWords? stem.toList chain.toList := by
  have hblank : Text.isBlank ' ' = true := by decide
  have hshort (text : String) (h : text.toList.length < 10) : inWords? stem.toList text.toList = none :=
    inWords?_eq_none (not_mentions_of_short stem h)
  have hpolicy : (s!"-P {chain} ACCEPT").toList = "-P".toList ++ ' ' :: (chain.toList ++ ' ' :: "ACCEPT".toList) := by
    simp [toString]
  have hname : (s!"-N {chain}").toList = "-N".toList ++ ' ' :: chain.toList := by
    simp [toString]
  constructor
  · rw [inLine?_eq_inWords? hstem, hpolicy, inWords?_append_blank _ _ _ hblank, inWords?_append_blank _ _ _ hblank,
      hshort "-P" (by decide), hshort "ACCEPT" (by decide), Option.none_or, Option.or_none]
  · rw [inLine?_eq_inWords? hstem, hname, inWords?_append_blank _ _ _ hblank, hshort "-N" (by decide), Option.none_or]

/-! ## The rules of a parent chain -/

/-- Whether no token of a rule mentions a generation of a stem. -/
def Plain (stem : String) (rule : Rule) : Prop := ∀ token ∈ rule.tokens, ¬ Mentions stem token

/-- The generation of a stem that a rule jumps to. -/
def jumped? (stem : String) (rule : Rule) : Option Nat := rule.target?.bind (ofName? stem)

/-- The generations of a stem that rules jump to, in the order of the rules. -/
def linked (stem : String) (rules : List Rule) : List Nat := rules.filterMap (jumped? stem)

theorem target?_jumpTo (chain : String) : (Rule.jumpTo chain).target? = some chain := by
  simp [Rule.target?, Rule.jumpTo, Rule.targetOf, Rule.isTargetOption]

theorem jumped?_jumpTo (stem chain : String) : jumped? stem (Rule.jumpTo chain) = ofName? stem chain := by
  rw [jumped?, target?_jumpTo, Option.bind_some]

theorem mem_tokens_of_targetOf {tokens : List String} {target : String}
    (h : Rule.targetOf tokens = some target) : target ∈ tokens := by
  induction tokens with
  | nil => cases h
  | cons token rest ih =>
    simp only [Rule.targetOf] at h
    split at h
    · exact List.mem_cons_of_mem _ (List.mem_of_head? h)
    · exact List.mem_cons_of_mem _ (ih h)

/-- A plain rule jumps to no generation. -/
theorem Plain.jumped?_eq_none {stem : String} {rule : Rule} (h : Plain stem rule) : jumped? stem rule = none := by
  cases htarget : rule.target? with
  | none => rw [jumped?, htarget, Option.bind_none]
  | some target =>
    rw [jumped?, htarget, Option.bind_some]
    by_contra hsome
    obtain ⟨generation, hfound⟩ := Option.ne_none_iff_exists'.mp hsome
    exact h target (mem_tokens_of_targetOf htarget) (mentions_of_ofName? hfound)

theorem Plain.inLine?_eq_none {stem : String} {rule : Rule} (h : Plain stem rule) (hstem : BlankFree stem)
    {chain : String} (hchain : ¬ Mentions stem chain) : inLine? stem s!"-A {chain} {rule.render}" = none := by
  rw [inLine?_rule hstem, inWords?_eq_none hchain, Option.none_or, List.findSome?_eq_none_iff]
  intro token htoken
  exact inWords?_eq_none (h token htoken)

/-- The line of a jump to a generation, of whatever stem, names what the rule jumps to, unless the chain's own name
mentions another. -/
theorem inLine?_jumpTo_name {stem other : String} (hstem : BlankFree stem) (hother : BlankFree other) (chain : String)
    (generation : Nat) : inLine? stem s!"-A {chain} {(Rule.jumpTo (name other generation)).render}" =
      (inWords? stem.toList chain.toList).or (ofName? stem (name other generation)) := by
  have hoption : inWords? stem.toList "-j".toList = none := inWords?_eq_none (not_mentions_of_short stem (by decide))
  have hfree : ∀ c ∈ (name other generation).toList, Text.isBlank c = false := by
    intro c hc
    rw [name_toList] at hc
    rcases List.mem_append.mp hc with hc | hc
    · exact hother c hc
    · exact isBlank_of_isDigit (isDigit_of_mem_digits generation c hc)
  rw [inLine?_rule hstem]
  simp only [Rule.jumpTo, List.findSome?_cons, hoption, inWords?_of_blank_free _ hfree, List.findSome?_nil]
  rw [ofName?]
  cases ofWord? stem.toList (name other generation).toList <;> rfl

/-- The name of a generation ends in a digit. -/
theorem name_notMem_of_getLast? {names : List String} (h : ∀ text ∈ names, text.toList.getLast?.any Char.isDigit = false)
    (stem : String) (generation : Nat) : name stem generation ∉ names := by
  intro hmem
  have hlast := h _ hmem
  rw [name_toList, List.getLast?_append_of_ne_nil _ (digits_ne_nil generation),
    List.getLast?_eq_some_getLast (digits_ne_nil generation), Option.any_some,
    isDigit_of_mem_digits generation _ (List.getLast_mem _)] at hlast
  cases hlast

/-- No generation has the name of a standard target. -/
theorem name_notMem_standardTargets (stem : String) (generation : Nat) :
    name stem generation ∉ Filter.Tables.standardTargets :=
  name_notMem_of_getLast? (by decide) stem generation

/-! ## The generations of a listing -/

theorem insert_nil (generation : Nat) : insert generation [] = [generation] := rfl

theorem insert_cons (generation first : Nat) (rest : List Nat) : insert generation (first :: rest) =
    if generation < first then generation :: first :: rest
    else if generation = first then first :: rest
    else first :: insert generation rest := rfl

theorem mem_insert {generation found : Nat} {sorted : List Nat} :
    found ∈ insert generation sorted ↔ found = generation ∨ found ∈ sorted := by
  induction sorted with
  | nil => rw [insert_nil, List.mem_cons]
  | cons first rest ih =>
    rw [insert_cons]
    split
    · simp
    · split
      next heq => simp [heq]
      next => simp only [List.mem_cons, ih]; tauto

theorem pairwise_insert {generation : Nat} {sorted : List Nat} (h : sorted.Pairwise (· < ·)) :
    (insert generation sorted).Pairwise (· < ·) := by
  induction sorted with
  | nil =>
    rw [insert_nil]
    exact List.pairwise_singleton _ _
  | cons first rest ih =>
    obtain ⟨hfirst, hrest⟩ := List.pairwise_cons.mp h
    rw [insert_cons]
    split
    next hlt =>
      refine List.pairwise_cons.mpr ⟨?_, h⟩
      intro found hfound
      rcases List.mem_cons.mp hfound with rfl | hmem
      · exact hlt
      · exact Nat.lt_trans hlt (hfirst found hmem)
    next hnot =>
      split
      · exact h
      · refine List.pairwise_cons.mpr ⟨?_, ih hrest⟩
        intro found hfound
        rw [mem_insert] at hfound
        rcases hfound with rfl | hmem
        · omega
        · exact hfirst found hmem

theorem inListing_eq_foldl (stem : String) (lines : List String) : inListing stem lines =
    (lines.filterMap (inLine? stem)).foldl (fun found generation => insert generation found) [] := by
  rw [inListing]
  generalize ([] : List Nat) = found
  induction lines generalizing found with
  | nil => rfl
  | cons line rest ih =>
    rw [List.foldl_cons, ih]
    cases hline : inLine? stem line <;> simp [hline]

theorem pairwise_foldl_insert {found : List Nat} (generations : List Nat) (h : found.Pairwise (· < ·)) :
    (generations.foldl (fun found generation => insert generation found) found).Pairwise (· < ·) := by
  induction generations generalizing found with
  | nil => exact h
  | cons generation rest ih => exact ih (pairwise_insert h)

theorem mem_foldl_insert {found : List Nat} (generations : List Nat) (generation : Nat) :
    generation ∈ generations.foldl (fun found generation => insert generation found) found ↔
      generation ∈ found ∨ generation ∈ generations := by
  induction generations generalizing found with
  | nil => simp
  | cons first rest ih =>
    rw [List.foldl_cons, ih, mem_insert, List.mem_cons]
    tauto

/-- The generations found are ascending. -/
theorem pairwise_inListing (stem : String) (lines : List String) :
    (inListing stem lines).Pairwise (· < ·) := by
  rw [inListing_eq_foldl]
  exact pairwise_foldl_insert _ List.Pairwise.nil

theorem mem_inListing {stem : String} {lines : List String} {generation : Nat} :
    generation ∈ inListing stem lines ↔ ∃ line ∈ lines, inLine? stem line = some generation := by
  rw [inListing_eq_foldl, mem_foldl_insert]
  simp

/-- What is found in a listing is written with ten digits. -/
theorem lt_limit_of_mem_inListing {stem : String} (hstem : BlankFree stem) {lines : List String} {generation : Nat}
    (h : generation ∈ inListing stem lines) : generation < limit := by
  rw [mem_inListing] at h
  obtain ⟨line, -, hline⟩ := h
  rw [inLine?_eq_inWords? hstem] at hline
  obtain ⟨word, -, hword⟩ := List.exists_of_findSome?_eq_some hline
  exact lt_limit_of_ofWord? hword

/-- A generation that a chain's own name mentions is found in its listing. -/
theorem mem_inListing_of_chain {stem chain : String} (hstem : BlankFree stem) {generation : Nat}
    (h : inWords? stem.toList chain.toList = some generation) (rules : List Rule) :
    generation ∈ inListing stem (Filter.Tables.listing chain rules) := by
  obtain ⟨hpolicy, hname⟩ := inLine?_header hstem chain
  rw [mem_inListing]
  refine ⟨_, List.mem_cons_self .., ?_⟩
  split
  · exact hpolicy.trans h
  · exact hname.trans h

/-- A generation that a chain links is found in its listing, unless the chain's own name mentions another. -/
theorem mem_inListing_of_jumpTo {stem chain : String} (hstem : BlankFree stem)
    (hchain : inWords? stem.toList chain.toList = none) {generation : Nat} (hlimit : generation < limit)
    {rules : List Rule} (hrule : Rule.jumpTo (name stem generation) ∈ rules) :
    generation ∈ inListing stem (Filter.Tables.listing chain rules) := by
  rw [mem_inListing]
  refine ⟨_, List.mem_cons_of_mem _ (List.mem_map_of_mem hrule), ?_⟩
  rw [inLine?_jumpTo_name hstem hstem, hchain, Option.none_or, ofName?_name stem generation hlimit]

/-- The next generation is not older than the clock. -/
theorem le_next (found : List Nat) (now : Nat) : now ≤ next found now := by
  unfold next
  split
  · split <;> omega
  · exact Nat.le_refl now

/-- The next generation is newer than every generation found. -/
theorem lt_next {found : List Nat} (h : found.Pairwise (· < ·)) (now : Nat) :
    ∀ generation ∈ found, generation < next found now := by
  intro generation hmem
  unfold next
  cases hlast : found.getLast? with
  | none => simp [List.getLast?_eq_none_iff.mp hlast] at hmem
  | some newest =>
    obtain ⟨older, rfl⟩ := List.getLast?_eq_some_iff.mp hlast
    have hle : generation ≤ newest := by
      rcases List.mem_append.mp hmem with hmem | hmem
      · have hlt := (List.pairwise_append.mp h).2.2 generation hmem newest (List.mem_singleton_self _)
        omega
      · rw [List.mem_singleton.mp hmem]
    dsimp only
    split <;> omega

/-- The lines of a chain name exactly what its rules name first, unless the chain's own name mentions a generation. -/
theorem mem_inListing_iff_namedFirst? {stem chain : String} (hstem : BlankFree stem)
    (hchain : inWords? stem.toList chain.toList = none) (rules : List Rule) (generation : Nat) :
    generation ∈ inListing stem (Filter.Tables.listing chain rules) ↔
      ∃ rule ∈ rules, namedFirst? stem rule = some generation := by
  obtain ⟨hpolicy, hname⟩ := inLine?_header hstem chain
  rw [hchain] at hpolicy hname
  rw [mem_inListing, Filter.Tables.listing]
  constructor
  · rintro ⟨line, hline, hfound⟩
    rcases List.mem_cons.mp hline with rfl | hline
    · split at hfound
      · rw [hpolicy] at hfound; cases hfound
      · rw [hname] at hfound; cases hfound
    · obtain ⟨rule, hrule, rfl⟩ := List.mem_map.mp hline
      exact ⟨rule, hrule, (inLine?_eq_namedFirst? hstem hchain rule).symm.trans hfound⟩
  · rintro ⟨rule, hrule, hfound⟩
    exact ⟨_, List.mem_cons_of_mem _ (List.mem_map_of_mem hrule),
      (inLine?_eq_namedFirst? hstem hchain rule).trans hfound⟩

/-- The lines of a chain name exactly what its rules jump to, if that holds of each rule's line. -/
theorem mem_inListing_listing {stem chain : String} (hstem : BlankFree stem) (hchain : ¬ Mentions stem chain)
    {rules : List Rule} (hrules : ∀ rule ∈ rules, inLine? stem s!"-A {chain} {rule.render}" = jumped? stem rule)
    (generation : Nat) :
    generation ∈ inListing stem (Filter.Tables.listing chain rules) ↔ generation ∈ linked stem rules := by
  have hnone := inWords?_eq_none hchain
  rw [mem_inListing_iff_namedFirst? hstem hnone, linked, List.mem_filterMap]
  refine exists_congr fun rule => and_congr_right fun hrule => ?_
  rw [← hrules rule hrule, inLine?_eq_namedFirst? hstem hnone]

/-- Rules that jump to ever older generations are listed as those generations, the oldest first. -/
theorem inListing_eq_reverse_linked {stem chain : String} (hstem : BlankFree stem)
    (hchain : ¬ Mentions stem chain) {rules : List Rule}
    (hrules : ∀ rule ∈ rules, inLine? stem s!"-A {chain} {rule.render}" = jumped? stem rule)
    (hsorted : (linked stem rules).Pairwise (· > ·)) :
    inListing stem (Filter.Tables.listing chain rules) = (linked stem rules).reverse := by
  refine List.Pairwise.eq_of_mem_iff (pairwise_inListing stem _) (List.pairwise_reverse.mpr hsorted) ?_
  intro generation
  rw [mem_inListing_listing hstem hchain hrules, List.mem_reverse]

end OverlayHost.Generation
