import OverlayHost.Proofs.Filter.Lines

/-!
# The arguments of a restore command

How the program that is given a restore document parts a command of it into arguments. Fewer characters part them than
are blank, and a quote that closes ends an argument, so that an empty one can be written. `arguments_words` says that the
words of a rule are parted into the tokens of the rule, whatever stands in them.
-/

set_option autoImplicit false

namespace OverlayHost.Filter.Restore

/-- The characters that part arguments outside of quotes. -/
def partsArguments (c : Char) : Bool := c = ' ' || c = '\t' || c = '\n'

/-- The argument that has begun, unless nothing was read of it. -/
def begunArgument (begun : List Char) : List String := if begun = [] then [] else [String.ofList begun]

/-- The arguments in the rest of a command, with what was read of the argument that has begun. -/
def readArguments : Mode → List Char → List Char → List String
  | _, begun, [] => begunArgument begun
  | .plain, begun, c :: rest =>
    if c = '"' then readArguments .quoted begun rest
    else if partsArguments c then begunArgument begun ++ readArguments .plain [] rest
    else readArguments .plain (begun ++ [c]) rest
  | .quoted, begun, c :: rest =>
    if c = '"' then String.ofList begun :: readArguments .plain [] rest
    else if c = '\\' then readArguments .escaped begun rest
    else readArguments .quoted (begun ++ [c]) rest
  | .escaped, begun, c :: rest => readArguments .quoted (begun ++ [c]) rest

/-- The arguments of a command. -/
def arguments (command : String) : List String := readArguments .plain [] command.toList

/-- Whether nothing follows, or something that parts it from an argument before. -/
def Parted (rest : List Char) : Prop := ∀ c, rest.head? = some c → partsArguments c = true

variable {begun rest : List Char}

theorem parted_nil : Parted [] := by
  intro c hc
  cases hc

theorem parted_space (rest : List Char) : Parted (' ' :: rest) := by
  intro c hc
  rw [← Option.some.inj hc]
  decide

/-- What parts arguments is blank. -/
theorem isBlank_of_partsArguments {c : Char} (h : partsArguments c = true) : Text.isBlank c = true := by
  simp only [partsArguments, Bool.or_eq_true, decide_eq_true_eq] at h
  rcases h with (rfl | rfl) | rfl <;> decide

/-! ## One argument -/

theorem begunArgument_nil : begunArgument [] = [] := if_pos rfl

theorem begunArgument_of_ne_nil (h : begun ≠ []) : begunArgument begun = [String.ofList begun] := if_neg h

theorem readArguments_nil (mode : Mode) (begun : List Char) : readArguments mode begun [] = begunArgument begun := by
  cases mode <;> rfl

theorem readArguments_cons_plain (begun : List Char) (c : Char) (rest : List Char) :
    readArguments .plain begun (c :: rest) =
      if c = '"' then readArguments .quoted begun rest
      else if partsArguments c then begunArgument begun ++ readArguments .plain [] rest
      else readArguments .plain (begun ++ [c]) rest :=
  rfl

theorem readArguments_cons_quoted (begun : List Char) (c : Char) (rest : List Char) :
    readArguments .quoted begun (c :: rest) =
      if c = '"' then String.ofList begun :: readArguments .plain [] rest
      else if c = '\\' then readArguments .escaped begun rest
      else readArguments .quoted (begun ++ [c]) rest :=
  rfl

theorem readArguments_cons_escaped (begun : List Char) (c : Char) (rest : List Char) :
    readArguments .escaped begun (c :: rest) = readArguments .quoted (begun ++ [c]) rest :=
  rfl

theorem readArguments_space (rest : List Char) :
    readArguments .plain [] (' ' :: rest) = readArguments .plain [] rest := by
  rw [readArguments_cons_plain, if_neg (by decide), if_pos (by decide), begunArgument_nil, List.nil_append]

/-- An argument outside of quotes ends where it is parted from the rest. -/
theorem readArguments_parted (hbegun : begun ≠ []) (hrest : Parted rest) :
    readArguments .plain begun rest = String.ofList begun :: readArguments .plain [] rest := by
  cases rest with
  | nil => rw [readArguments_nil, readArguments_nil, begunArgument_of_ne_nil hbegun, begunArgument_nil]
  | cons c rest =>
    have hparts : partsArguments c = true := hrest c rfl
    have hquote : c ≠ '"' := by
      rintro rfl
      cases hparts
    rw [readArguments_cons_plain, readArguments_cons_plain, if_neg hquote, if_neg hquote, if_pos hparts, if_pos hparts,
      begunArgument_of_ne_nil hbegun, begunArgument_nil, List.nil_append, List.singleton_append]

theorem readArguments_plain {cs : List Char} (hplain : ∀ c ∈ cs, needsQuotes c = false) :
    readArguments .plain begun (cs ++ rest) = readArguments .plain (begun ++ cs) rest := by
  induction cs generalizing begun with
  | nil => rw [List.nil_append, List.append_nil]
  | cons c cs ih =>
    obtain ⟨hc, hplain⟩ := List.forall_mem_cons.mp hplain
    simp only [needsQuotes, Bool.or_eq_false_iff, decide_eq_false_iff_not] at hc
    obtain ⟨⟨⟨hblank, hquote⟩, -⟩, -⟩ := hc
    have hparts : ¬ partsArguments c = true := by
      intro hparts
      rw [isBlank_of_partsArguments hparts] at hblank
      cases hblank
    rw [List.cons_append, readArguments_cons_plain, if_neg hquote, if_neg hparts, ih hplain, List.append_assoc,
      List.singleton_append]

theorem readArguments_escape (cs : List Char) :
    readArguments .quoted begun (cs.flatMap escape ++ rest) = readArguments .quoted (begun ++ cs) rest := by
  induction cs generalizing begun with
  | nil => rw [List.flatMap_nil, List.nil_append, List.append_nil]
  | cons c cs ih =>
    have hnext (rest : List Char) :
        readArguments .quoted begun (escape c ++ rest) = readArguments .quoted (begun ++ [c]) rest := by
      unfold escape
      split
      next =>
        rw [List.cons_append, readArguments_cons_quoted, if_neg (by decide), if_pos rfl, List.singleton_append,
          readArguments_cons_escaped]
      next hplain =>
        rw [Bool.or_eq_true, decide_eq_true_iff, decide_eq_true_iff, not_or] at hplain
        rw [List.singleton_append, readArguments_cons_quoted, if_neg hplain.1, if_neg hplain.2]
    rw [List.flatMap_cons, List.append_assoc, hnext, ih, List.append_assoc, List.singleton_append]

/-- A token is read as one argument, whether it is plain or between quotes. -/
theorem readArguments_word (token : String) (hrest : Parted rest) :
    readArguments .plain [] ((word token).toList ++ rest) = token :: readArguments .plain [] rest := by
  unfold word
  split
  next hplain =>
    rw [Bool.and_eq_true, decide_eq_true_iff] at hplain
    obtain ⟨hne, hplain⟩ := hplain
    have hbegun : token.toList ≠ [] := fun hnil => hne (String.toList_eq_nil_iff.mp hnil)
    rw [readArguments_plain (by simpa using hplain), List.nil_append, readArguments_parted hbegun hrest,
      String.ofList_toList]
  next =>
    rw [String.toList_ofList, List.cons_append, List.cons_append, readArguments_cons_plain, if_pos rfl,
      List.append_assoc, readArguments_escape, List.nil_append, List.singleton_append, readArguments_cons_quoted,
      if_pos rfl, String.ofList_toList]

/-! ## The arguments of a rule -/

/-- The words of a rule are read as its tokens, and then the rest is read. -/
theorem readArguments_words (rule : Rule) (hrest : Parted rest) :
    readArguments .plain [] ((words rule).toList ++ rest) = rule.tokens ++ readArguments .plain [] rest := by
  rw [words, String.toList_intercalate]
  induction rule.tokens with
  | nil => rfl
  | cons token tokens ih =>
    -- Behind the last token stands no space, but what follows the words.
    cases tokens with
    | nil =>
      rw [List.map_singleton, List.map_singleton, List.intercalate_singleton, readArguments_word token hrest,
        List.singleton_append]
    | cons next tokens =>
      rw [List.map_cons, List.map_cons, List.map_cons, List.map_cons, List.intercalate_cons_cons, List.append_assoc,
        List.append_assoc, show " ".toList = [' '] from rfl, List.singleton_append,
        readArguments_word token (parted_space _), readArguments_space]
      exact congrArg (token :: ·) ih

/-- The words of a rule are parted into the tokens of the rule, in order. -/
theorem arguments_words (rule : Rule) : arguments (words rule) = rule.tokens := by
  have hread := readArguments_words rule parted_nil
  rw [List.append_nil] at hread
  rw [arguments, hread, readArguments_nil, begunArgument_nil, List.append_nil]

-- A quote that closes parts an argument from what is written right behind it.
example : arguments "-m\tcomment  --comment \"\"\"say \\\"no\\\"\"-j DROP" =
    ["-m", "comment", "--comment", "", "say \"no\"", "-j", "DROP"] := by decide

end OverlayHost.Filter.Restore
