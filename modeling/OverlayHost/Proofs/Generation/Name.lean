import OverlayHost.Generation
import OverlayHost.Proofs.Text.Digits

/-!
# Names of generations

A generation below ten thousand million is written with exactly ten digits, so the stem and the generation can be
read back from the name: two names are equal only if stems and generations are. `Mentions` says when a text holds
a name of a stem anywhere inside.
-/

set_option autoImplicit false

namespace OverlayHost.Generation

/-- The generations that are written with ten digits. -/
def limit : Nat := 10000000000

/-- Whether a list is ten decimal digits. -/
def isStamp (written : List Char) : Bool := written.length = 10 && written.all Char.isDigit

/-- The generation in a word that is a stem followed by ten digits. -/
def ofWord? (stem word : List Char) : Option Nat :=
  if stem.isPrefixOf word && isStamp (word.drop stem.length) then
    some (Text.decimalValue (word.drop stem.length))
  else none

/-- The generation that a chain has by its name, if the name is a stem followed by ten digits. -/
def ofName? (stem name : String) : Option Nat := ofWord? stem.toList name.toList

/-- Whether a text holds a stem followed by ten digits. -/
def Mentions (stem text : String) : Prop :=
  ∃ stamp, isStamp stamp = true ∧ stem.toList ++ stamp <:+: text.toList

/-- Whether a text holds no blank. -/
def BlankFree (text : String) : Prop := ∀ c ∈ text.toList, Text.isBlank c = false

instance (text : String) : Decidable (BlankFree text) :=
  List.decidableBAll (fun c => Text.isBlank c = false) text.toList

/-! ## Digits -/

theorem isDigit_of_mem_digits (generation : Nat) (c : Char) (h : c ∈ digits generation) : c.isDigit = true := by
  unfold digits at h
  rcases List.mem_append.mp h with hzero | hwritten
  · rw [List.eq_of_mem_replicate hzero]
    decide
  · exact Nat.isDigit_of_mem_toDigits (by decide) (by decide) hwritten

theorem digits_length (generation : Nat) (h : generation < limit) : (digits generation).length = 10 := by
  have hshort : (Nat.toDigits 10 generation).length ≤ 10 :=
    (Nat.length_toDigits_le_iff (by decide) (by decide)).mpr h
  simp only [digits, List.length_append, List.length_replicate]
  omega

theorem digits_ne_nil (generation : Nat) : digits generation ≠ [] := by
  simp [digits, Nat.toDigits_ne_nil]

theorem isStamp_digits (generation : Nat) (h : generation < limit) : isStamp (digits generation) = true := by
  have hall : (digits generation).all Char.isDigit = true :=
    List.all_eq_true.mpr (isDigit_of_mem_digits generation)
  simp [isStamp, digits_length generation h, hall]

theorem length_of_isStamp {written : List Char} (h : isStamp written = true) : written.length = 10 := by
  simp only [isStamp, Bool.and_eq_true, decide_eq_true_eq] at h
  exact h.1

theorem isDigit_of_isStamp {written : List Char} (h : isStamp written = true) :
    ∀ c ∈ written, c.isDigit = true := by
  simp only [isStamp, Bool.and_eq_true, List.all_eq_true] at h
  exact h.2

/-- The digits of a generation stand for it. -/
theorem decimalValue_digits (generation : Nat) : Text.decimalValue (digits generation) = generation := by
  rw [Text.decimalValue_eq_ofDigitChars, digits, Nat.ofDigitChars_append, Nat.ofDigitChars_replicate_zero,
    Nat.mul_zero, Nat.ofDigitChars_ten_toDigits]

/-- Ten digits stand for a generation that is written with ten digits. -/
theorem decimalValue_lt_limit {stamp : List Char} (h : isStamp stamp = true) : Text.decimalValue stamp < limit := by
  have hlt := Text.decimalValue_lt (isDigit_of_isStamp h)
  rw [length_of_isStamp h] at hlt
  exact hlt

theorem isBlank_of_isDigit {c : Char} (h : c.isDigit = true) : Text.isBlank c = false := by
  have hrange := (Text.isDigit_iff_toNat c).mp h
  simp only [Text.isBlank, Bool.or_eq_false_iff, Bool.and_eq_false_iff, decide_eq_false_iff_not]
  omega

/-! ## Names -/

theorem name_toList (stem : String) (generation : Nat) :
    (name stem generation).toList = stem.toList ++ digits generation := by
  rw [name, String.toList_ofList]

/-- A word is a stem and ten digits as soon as it names a generation of the stem. -/
theorem eq_append_of_ofWord? {stem word : List Char} {generation : Nat}
    (h : ofWord? stem word = some generation) : ∃ stamp, isStamp stamp = true ∧ word = stem ++ stamp := by
  unfold ofWord? at h
  split at h
  next hname =>
    obtain ⟨hstem, hstamp⟩ := Bool.and_eq_true_iff.mp hname
    obtain ⟨rest, hrest⟩ := List.isPrefixOf_iff_prefix.mp hstem
    subst hrest
    rw [List.drop_left] at hstamp
    exact ⟨rest, hstamp, rfl⟩
  next => cases h

theorem ofWord?_append {stem stamp : List Char} (h : isStamp stamp = true) :
    ofWord? stem (stem ++ stamp) = some (Text.decimalValue stamp) := by
  simp [ofWord?, h]

theorem lt_limit_of_ofWord? {stem word : List Char} {generation : Nat} (h : ofWord? stem word = some generation) :
    generation < limit := by
  obtain ⟨stamp, hstamp, rfl⟩ := eq_append_of_ofWord? h
  rw [ofWord?_append hstamp] at h
  rw [← Option.some.inj h]
  exact decimalValue_lt_limit hstamp

theorem ofName?_name (stem : String) (generation : Nat) (h : generation < limit) :
    ofName? stem (name stem generation) = some generation := by
  rw [ofName?, name_toList, ofWord?_append (isStamp_digits generation h), decimalValue_digits]

/-- A name with ten digits belongs to one stem only. -/
theorem stem_eq_of_ofName? {stem other : String} {generation found : Nat} (h : generation < limit)
    (hfound : ofName? stem (name other generation) = some found) : stem = other := by
  obtain ⟨stamp, hstamp, hword⟩ := eq_append_of_ofWord? hfound
  rw [name_toList] at hword
  have hlength : (digits generation).length = stamp.length := by
    rw [digits_length generation h, length_of_isStamp hstamp]
  exact String.toList_inj.mp (List.append_inj_left' hword hlength).symm

/-- A generation whose name is the stem and ten digits has a number of ten digits. -/
theorem lt_limit_of_ofName? {stem : String} {generation : Nat}
    (h : (ofName? stem (name stem generation)).isSome = true) : generation < limit := by
  obtain ⟨found, hfound⟩ := Option.isSome_iff_exists.mp h
  obtain ⟨stamp, hstamp, hword⟩ := eq_append_of_ofWord? hfound
  rw [name_toList] at hword
  have hlength : (digits generation).length = 10 := by
    rw [List.append_cancel_left hword, length_of_isStamp hstamp]
  have hshort : (Nat.toDigits 10 generation).length ≤ 10 := by
    simp only [digits, List.length_append, List.length_replicate] at hlength
    omega
  exact (Nat.length_toDigits_le_iff (by decide) (by decide)).mp hshort

theorem name_injective {stem other : String} {generation second : Nat} (h : generation < limit)
    (hsecond : second < limit) (heq : name stem generation = name other second) :
    stem = other ∧ generation = second := by
  have hfound : ofName? stem (name other second) = some generation := by
    rw [← heq, ofName?_name stem generation h]
  have hstem := stem_eq_of_ofName? hsecond hfound
  subst hstem
  rw [ofName?_name stem second hsecond] at hfound
  exact ⟨rfl, (Option.some.inj hfound).symm⟩

/-- Generations of one stem have different names, however many digits they are written with. -/
theorem name_inj {stem : String} {generation second : Nat} :
    name stem generation = name stem second ↔ generation = second := by
  constructor
  · intro heq
    have hlist := congrArg String.toList heq
    rw [name_toList, name_toList] at hlist
    have hdigits := List.append_cancel_left hlist
    calc
      generation = Text.decimalValue (digits generation) := (decimalValue_digits generation).symm
      _ = Text.decimalValue (digits second) := by rw [hdigits]
      _ = second := decimalValue_digits second
  · intro heq
    rw [heq]

/-! ## Mentions -/

theorem mentions_name (stem : String) (generation : Nat) (h : generation < limit) :
    Mentions stem (name stem generation) :=
  ⟨digits generation, isStamp_digits generation h, by rw [name_toList]⟩

/-- A text too short for ten digits after the stem mentions no generation. -/
theorem Mentions.length_le {stem text : String} (h : Mentions stem text) :
    stem.toList.length + 10 ≤ text.toList.length := by
  obtain ⟨stamp, hstamp, hmention⟩ := h
  have hle := hmention.length_le
  rw [List.length_append, length_of_isStamp hstamp] at hle
  exact hle

theorem not_mentions_of_short (stem : String) {text : String} (h : text.toList.length < 10) : ¬ Mentions stem text := by
  intro hmention
  have hle := hmention.length_le
  omega

theorem mentions_of_ofName? {stem text : String} {generation : Nat}
    (h : ofName? stem text = some generation) : Mentions stem text := by
  obtain ⟨stamp, hstamp, htext⟩ := eq_append_of_ofWord? h
  exact ⟨stamp, hstamp, htext ▸ List.infix_rfl⟩

end OverlayHost.Generation
