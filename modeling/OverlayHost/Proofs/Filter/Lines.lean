import OverlayHost.Config.Basic
import OverlayHost.Filter.Command

/-!
# The lines of restore documents

A restore document is read line by line, and what makes a line is the line feed. `one_line_per_rule_iff` says when the
document that adds rules to a chain has one line for each of them: if no line feed stands in the name of the table, in
the name of the chain or in a token, and only then. Quotes do not help, as a line ends inside of them too; they do keep
the tokens of a rule apart.
-/

set_option autoImplicit false

namespace OverlayHost.Filter.Restore

open Text

/-- The lines of a text, each of which is ended by a line feed. -/
def readLines (document : String) : List String :=
  (splitAtChar '\n' document.toList).dropLast.map String.ofList

/-- How a reader of a line takes the next character. -/
inductive Mode where
  | plain
  /-- Between double quotes a blank parts no words. -/
  | quoted
  /-- After a backslash between double quotes a character stands for itself. -/
  | escaped

/-- The words in the rest of a line, with what was read of the word that has begun. -/
def readWords : Mode → Option (List Char) → List Char → List String
  | _, begun, [] => (begun.map String.ofList).toList
  | .plain, begun, c :: rest =>
    if c = '"' then readWords .quoted (some (begun.getD [])) rest
    else if isBlank c then (begun.map String.ofList).toList ++ readWords .plain none rest
    else readWords .plain (some (begun.getD [] ++ [c])) rest
  | .quoted, begun, c :: rest =>
    if c = '"' then readWords .plain begun rest
    else if c = '\\' then readWords .escaped begun rest
    else readWords .quoted (some (begun.getD [] ++ [c])) rest
  | .escaped, begun, c :: rest => readWords .quoted (some (begun.getD [] ++ [c])) rest

/-- No line feed stands in anything that goes into the document of some rules. -/
def Unbroken (table chain : String) (rules : List Rule) : Prop :=
  '\n' ∉ table.toList ∧ '\n' ∉ chain.toList ∧ ∀ rule ∈ rules, ∀ token ∈ rule.tokens, '\n' ∉ token.toList

/-! ## Splitting at a character -/

variable {sep : Char} {line begun rest : List Char}

theorem splitAtChar_append (hline : sep ∉ line) :
    splitAtChar sep (line ++ sep :: rest) = line :: splitAtChar sep rest := by
  induction line with
  | nil => rw [List.nil_append, splitAtChar, if_pos rfl]
  | cons c line ih =>
    rw [List.mem_cons, not_or] at hline
    rw [List.cons_append, splitAtChar, if_neg (Ne.symm hline.1), ih hline.2]

theorem notMem_of_mem_splitAtChar {piece : List Char} (hpiece : piece ∈ splitAtChar sep rest) : sep ∉ piece := by
  fun_induction splitAtChar sep rest generalizing piece with
  | case1 =>
    rw [List.mem_singleton.mp hpiece]
    exact List.not_mem_nil
  | case2 rest ih =>
    rcases List.mem_cons.mp hpiece with rfl | hpiece
    · exact List.not_mem_nil
    · exact ih hpiece
  | case3 c rest hne hnil ih =>
    rw [List.mem_singleton.mp hpiece, List.mem_singleton]
    exact Ne.symm hne
  | case4 c rest hne first pieces hcons ih =>
    rw [hcons] at ih
    rcases List.mem_cons.mp hpiece with rfl | hpiece
    · rw [List.mem_cons, not_or]
      exact ⟨Ne.symm hne, ih List.mem_cons_self⟩
    · exact ih (List.mem_cons_of_mem _ hpiece)

theorem splitAtChar_ended {lines : List (List Char)} (hlines : ∀ line ∈ lines, sep ∉ line) :
    splitAtChar sep (lines.flatMap (· ++ [sep])) = lines ++ [[]] := by
  induction lines with
  | nil => rfl
  | cons line lines ih =>
    obtain ⟨hline, hrest⟩ := List.forall_mem_cons.mp hlines
    rw [List.flatMap_cons, List.append_assoc, List.singleton_append, splitAtChar_append hline, ih hrest]
    rfl

/-! ## The words of a line -/

theorem readWords_nil (mode : Mode) (begun : Option (List Char)) :
    readWords mode begun [] = (begun.map String.ofList).toList := by
  cases mode <;> rfl

theorem readWords_cons_plain (begun : Option (List Char)) (c : Char) (rest : List Char) :
    readWords .plain begun (c :: rest) =
      if c = '"' then readWords .quoted (some (begun.getD [])) rest
      else if isBlank c then (begun.map String.ofList).toList ++ readWords .plain none rest
      else readWords .plain (some (begun.getD [] ++ [c])) rest :=
  rfl

theorem readWords_cons_quoted (begun : Option (List Char)) (c : Char) (rest : List Char) :
    readWords .quoted begun (c :: rest) =
      if c = '"' then readWords .plain begun rest
      else if c = '\\' then readWords .escaped begun rest
      else readWords .quoted (some (begun.getD [] ++ [c])) rest :=
  rfl

theorem readWords_cons_escaped (begun : Option (List Char)) (c : Char) (rest : List Char) :
    readWords .escaped begun (c :: rest) = readWords .quoted (some (begun.getD [] ++ [c])) rest :=
  rfl

theorem readWords_plain_cons {c : Char} (h : needsQuotes c = false) (begun : Option (List Char)) :
    readWords .plain begun (c :: rest) = readWords .plain (some (begun.getD [] ++ [c])) rest := by
  simp only [needsQuotes, Bool.or_eq_false_iff, decide_eq_false_iff_not] at h
  obtain ⟨⟨⟨hblank, hquote⟩, -⟩, -⟩ := h
  rw [readWords_cons_plain, if_neg hquote, if_neg (by simp [hblank])]

theorem readWords_plain {cs : List Char} (hplain : ∀ c ∈ cs, needsQuotes c = false) :
    readWords .plain (some begun) (cs ++ rest) = readWords .plain (some (begun ++ cs)) rest := by
  induction cs generalizing begun with
  | nil => rw [List.nil_append, List.append_nil]
  | cons c cs ih =>
    obtain ⟨hc, hplain⟩ := List.forall_mem_cons.mp hplain
    rw [List.cons_append, readWords_plain_cons hc, ih hplain, Option.getD_some, List.append_assoc, List.singleton_append]

theorem readWords_escape (cs : List Char) :
    readWords .quoted (some begun) (cs.flatMap escape ++ rest) = readWords .quoted (some (begun ++ cs)) rest := by
  induction cs generalizing begun with
  | nil => simp
  | cons c cs ih =>
    have hnext (rest : List Char) :
        readWords .quoted (some begun) (escape c ++ rest) = readWords .quoted (some (begun ++ [c])) rest := by
      unfold escape
      split
      next => simp [readWords_cons_quoted, readWords_cons_escaped]
      next hplain =>
        rw [Bool.or_eq_true, decide_eq_true_iff, decide_eq_true_iff, not_or] at hplain
        rw [List.singleton_append, readWords_cons_quoted, if_neg hplain.1, if_neg hplain.2, Option.getD_some]
    rw [List.flatMap_cons, List.append_assoc, hnext, ih, List.append_assoc, List.singleton_append]

/-- A token is read as a word, whether it is plain or between quotes. -/
theorem readWords_word (token : String) :
    readWords .plain none ((word token).toList ++ rest) = readWords .plain (some token.toList) rest := by
  unfold word
  split
  next hplain =>
    rw [Bool.and_eq_true, decide_eq_true_iff] at hplain
    obtain ⟨hne, hplain⟩ := hplain
    have hplain : ∀ c ∈ token.toList, needsQuotes c = false := by simpa using hplain
    have hbegin : readWords .plain none (token.toList ++ rest) = readWords .plain (some []) (token.toList ++ rest) := by
      cases hcs : token.toList with
      | nil => exact absurd (String.toList_eq_nil_iff.mp hcs) hne
      | cons c cs =>
        rw [hcs] at hplain
        have hc := hplain c List.mem_cons_self
        rw [List.cons_append, readWords_plain_cons hc, readWords_plain_cons hc]
        rfl
    rw [hbegin, readWords_plain hplain, List.nil_append]
  next =>
    rw [String.toList_ofList, List.cons_append, List.cons_append, readWords_cons_plain, if_pos rfl, Option.getD_none,
      List.append_assoc, readWords_escape, List.nil_append, List.singleton_append, readWords_cons_quoted, if_pos rfl]

/-- A line carries the tokens of its rule. -/
theorem readWords_words (rule : Rule) : readWords .plain none (words rule).toList = rule.tokens := by
  rw [words, String.toList_intercalate]
  induction rule.tokens with
  | nil => rfl
  | cons token tokens ih =>
    cases tokens with
    | nil =>
      rw [List.map_singleton, List.map_singleton, List.intercalate_singleton, ← List.append_nil (word token).toList,
        readWords_word, readWords_nil, Option.map_some, String.ofList_toList]
      rfl
    | cons next tokens =>
      rw [List.map_cons, List.map_cons, List.map_cons, List.map_cons, List.intercalate_cons_cons, List.append_assoc,
        readWords_word, show " ".toList = [' '] from rfl, List.singleton_append, readWords_cons_plain, if_neg (by decide),
        if_pos (by decide), Option.map_some, String.ofList_toList]
      exact congrArg (token :: ·) ih

/-! ## Documents -/

variable {table chain : String} {rule : Rule} {token : String} {position : Nat}

theorem toList_document (table : String) (lines : List String) :
    (document table lines).toList =
      ((("*" ++ table) :: lines ++ ["COMMIT"]).map String.toList).flatMap (· ++ ['\n']) := by
  simp [document, String.toList_join, List.flatMap_map, toString]

/-- A document is read as the lines that it was made of if there is no line feed in any of them, and only then. -/
theorem readLines_document_iff (table : String) (lines : List String) :
    readLines (document table lines) = ("*" ++ table) :: lines ++ ["COMMIT"] ↔
      '\n' ∉ table.toList ∧ ∀ line ∈ lines, '\n' ∉ line.toList := by
  constructor
  · intro hread
    have hunbroken : ∀ line ∈ ("*" ++ table) :: lines ++ ["COMMIT"], '\n' ∉ line.toList := by
      intro line hline
      rw [← hread] at hline
      obtain ⟨piece, hpiece, rfl⟩ := List.mem_map.mp hline
      rw [String.toList_ofList]
      exact notMem_of_mem_splitAtChar (List.dropLast_subset _ hpiece)
    refine ⟨fun hmem => ?_, fun line hline => ?_⟩
    · exact hunbroken ("*" ++ table) List.mem_cons_self (by simpa using hmem)
    · exact hunbroken line (List.mem_cons_of_mem _ (List.mem_append_left _ hline))
  · rintro ⟨htable, hlines⟩
    have hunbroken : ∀ line ∈ ((("*" ++ table) :: lines ++ ["COMMIT"]).map String.toList), '\n' ∉ line := by
      simp only [List.cons_append, List.map_cons, List.map_append, List.map_nil, List.forall_mem_cons,
        List.forall_mem_append, List.forall_mem_map]
      exact ⟨by simpa using htable, hlines, by decide, List.forall_mem_nil _⟩
    rw [readLines, toList_document, splitAtChar_ended hunbroken, List.dropLast_concat, List.map_map]
    have hself : String.ofList ∘ String.toList = id := funext fun _ => String.ofList_toList
    rw [hself, List.map_id]

theorem mem_escape_iff {c : Char} : '\n' ∈ escape c ↔ '\n' = c := by
  unfold escape
  split <;> simp

theorem mem_word_iff : '\n' ∈ (word token).toList ↔ '\n' ∈ token.toList := by
  unfold word
  split
  · rfl
  · simp [mem_escape_iff]

theorem mem_intercalate_iff {texts : List String} :
    '\n' ∈ (" ".intercalate texts).toList ↔ ∃ text ∈ texts, '\n' ∈ text.toList := by
  rw [String.toList_intercalate]
  induction texts with
  | nil => simp
  | cons text texts ih =>
    cases texts with
    | nil => simp
    | cons next texts =>
      rw [List.map_cons, List.map_cons, List.intercalate_cons_cons, ← List.map_cons, List.mem_append, ih]
      simp

theorem mem_words_iff : '\n' ∈ (words rule).toList ↔ ∃ token ∈ rule.tokens, '\n' ∈ token.toList := by
  rw [words, mem_intercalate_iff]
  constructor
  · rintro ⟨_, hword, hmem⟩
    obtain ⟨token, htoken, rfl⟩ := List.mem_map.mp hword
    exact ⟨token, htoken, mem_word_iff.mp hmem⟩
  · rintro ⟨token, htoken, hmem⟩
    exact ⟨word token, List.mem_map_of_mem htoken, mem_word_iff.mpr hmem⟩

theorem mem_appendLine_iff : '\n' ∈ (appendLine chain rule).toList ↔
    '\n' ∈ chain.toList ∨ ∃ token ∈ rule.tokens, '\n' ∈ token.toList := by
  simp [appendLine, mem_words_iff, toString]

theorem mem_insertLine_iff : '\n' ∈ (insertLine chain position rule).toList ↔
    '\n' ∈ chain.toList ∨ ∃ token ∈ rule.tokens, '\n' ∈ token.toList := by
  have hdigits : '\n' ∉ Nat.toDigits 10 position := fun hmem =>
    absurd (Nat.isDigit_of_mem_toDigits (by decide) (by decide) hmem) (by decide)
  simp [insertLine, mem_words_iff, toString, hdigits]

/-! ## One line for each rule -/

theorem forall_appendLines_iff {rules : List Rule} : (∀ line ∈ appendLines chain rules, '\n' ∉ line.toList) ↔
    ∀ rule ∈ rules, '\n' ∉ chain.toList ∧ ∀ token ∈ rule.tokens, '\n' ∉ token.toList := by
  simp [appendLines, mem_appendLine_iff]

theorem forall_insertLines_iff {rules : List Rule} :
    (∀ line ∈ insertLines chain position rules, '\n' ∉ line.toList) ↔
      ∀ rule ∈ rules, '\n' ∉ chain.toList ∧ ∀ token ∈ rule.tokens, '\n' ∉ token.toList := by
  induction rules generalizing position with
  | nil => simp [insertLines]
  | cons rule rules ih =>
    rw [insertLines, List.forall_mem_cons, List.forall_mem_cons, ih, mem_insertLine_iff]
    simp

theorem insertLines_eq_mapIdx (chain : String) (position : Nat) (rules : List Rule) : insertLines chain position rules =
    rules.mapIdx fun i rule => s!"-I {chain} {position + i} {words rule}" := by
  induction rules generalizing position with
  | nil => rfl
  | cons rule rules ih =>
    rw [insertLines, ih, List.mapIdx_cons]
    simp [insertLine, Nat.add_assoc, Nat.add_comm 1]

theorem unbroken_cons_iff {rest : List Rule} : Unbroken table chain (rule :: rest) ↔
    '\n' ∉ table.toList ∧
      ∀ written ∈ rule :: rest, '\n' ∉ chain.toList ∧ ∀ token ∈ written.tokens, '\n' ∉ token.toList := by
  constructor
  · rintro ⟨htable, hchain, htokens⟩
    exact ⟨htable, fun written hwritten => ⟨hchain, htokens written hwritten⟩⟩
  · rintro ⟨htable, hrules⟩
    exact ⟨htable, (hrules rule List.mem_cons_self).1, fun written hwritten => (hrules written hwritten).2⟩

/-- The document that adds rules to a chain is read as the line that names the table, one line for each rule with just
its tokens, and the line that commits them, if no line feed stands in the names or in a token, and only then. -/
theorem one_line_per_rule_iff (programs : Command.Programs) (table chain : String) (rule : Rule) (rest : List Rule) :
    (∀ rule, readWords .plain none (words rule).toList = rule.tokens) ∧
    (∃ input, Command.invocation? programs ⟨⟨table, chain⟩, .bulkAppend (rule :: rest)⟩ =
        some (Command.onDocument programs input) ∧
      (readLines input = s!"*{table}" :: (rule :: rest).map (fun rule => s!"-A {chain} {words rule}") ++ ["COMMIT"] ↔
        Unbroken table chain (rule :: rest))) ∧
    ∀ position, ∃ input, Command.invocation? programs ⟨⟨table, chain⟩, .bulkInsert position (rule :: rest)⟩ =
        some (Command.onDocument programs input) ∧
      (readLines input = s!"*{table}" ::
          (rule :: rest).mapIdx (fun i rule => s!"-I {chain} {position + i} {words rule}") ++ ["COMMIT"] ↔
        Unbroken table chain (rule :: rest)) := by
  refine ⟨readWords_words, ⟨_, rfl, ?_⟩, fun position => ⟨_, rfl, ?_⟩⟩
  · have hread := readLines_document_iff table (appendLines chain (rule :: rest))
    rw [forall_appendLines_iff, ← unbroken_cons_iff] at hread
    exact hread
  · have hread := readLines_document_iff table (insertLines chain position (rule :: rest))
    rw [forall_insertLines_iff, ← unbroken_cons_iff] at hread
    rw [← insertLines_eq_mapIdx]
    exact hread

/-- A comment that holds a command, and a name of a chain that does; configurations with such names are accepted. -/
theorem commands_in_comment_and_chain :
    Config.isChainStem "p-" = true ∧ Config.isChainStem "p\nCOMMIT\n*nat" = true ∧
    (∃ input, Command.invocation? {} ⟨⟨"filter", "p-"⟩, .bulkAppend [⟨["-m", "comment", "--comment", "a\nCOMMIT\n"]⟩]⟩ =
        some (Command.onDocument {} input) ∧
      readLines input = ["*filter", "-A p- -m comment --comment \"a", "COMMIT", "\"", "COMMIT"]) ∧
    ∃ input, Command.invocation? {} ⟨⟨"filter", "p\nCOMMIT\n*nat"⟩, .bulkAppend [⟨["-j", "ACCEPT"]⟩]⟩ =
        some (Command.onDocument {} input) ∧
      readLines input = ["*filter", "-A p", "COMMIT", "*nat -j ACCEPT", "COMMIT"] := by
  refine ⟨by decide, by decide, ⟨_, rfl, ?_⟩, _, rfl, ?_⟩
  · decide
  · decide

end OverlayHost.Filter.Restore
