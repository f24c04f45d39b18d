import OverlayHost.Text.Blank
import Mathlib

/-!
# Trimming, and letters of either case

Trimming takes the blanks around a text away and nothing of the text (`trim_padded`), so what it leaves has none around it
(`trimmed_trim`). A text in which letters have changed their case is the same in lower case, and has its blanks and its
dots where they were.
-/

set_option autoImplicit false

namespace OverlayHost.Text

variable {cs ds : List Char} {c d : Char}

/-! ## Trimming -/

/-- Neither the first character nor the last one is a blank. -/
structure Trimmed (cs : List Char) : Prop where
  head : ∀ c ∈ cs.head?, isBlank c = false
  last : ∀ c ∈ cs.getLast?, isBlank c = false

theorem dropWhile_of_head {p : Char → Bool} (h : ∀ c ∈ cs.head?, p c = false) : cs.dropWhile p = cs := by
  cases cs with
  | nil => rfl
  | cons c cs => exact List.dropWhile_cons_of_neg (by simp [h c rfl])

theorem dropWhile_append_of_head {p : Char → Bool} (hall : ∀ c ∈ ds, p c = true) (h : ∀ c ∈ cs.head?, p c = false) :
    (ds ++ cs).dropWhile p = cs := by
  rw [List.dropWhile_append_of_pos hall, dropWhile_of_head h]

theorem trim_padded {before after text : String} (hbefore : isAllBlank before) (hafter : isAllBlank after)
    (htext : Trimmed text.toList) : trim (before ++ text ++ after) = text := by
  have hbefore' : ∀ c ∈ before.toList, isBlank c = true := List.all_eq_true.mp hbefore
  have hafter' : ∀ c ∈ after.toList, isBlank c = true := List.all_eq_true.mp hafter
  rw [← String.toList_inj, trim, String.toList_ofList, String.toList_append, String.toList_append, List.append_assoc,
    List.dropWhile_append_of_pos hbefore']
  cases hcs : text.toList with
  | nil =>
    have hnone : after.toList.dropWhile isBlank = [] := by
      rw [List.dropWhile_eq_nil_iff]
      exact hafter'
    rw [List.nil_append, hnone]
    rfl
  | cons c cs =>
    rw [hcs] at htext
    have hlast : ∀ d ∈ (c :: cs).reverse.head?, isBlank d = false := by
      rw [List.head?_reverse]
      exact htext.last
    rw [dropWhile_of_head (by simpa using htext.head), dropEnd, List.reverse_append,
      dropWhile_append_of_head (by simpa using hafter') hlast, List.reverse_reverse]

theorem trim_of_trimmed {text : String} (htext : Trimmed text.toList) : trim text = text := by
  have h := @trim_padded "" "" text rfl rfl htext
  simpa using h

theorem trimmed_trim (text : String) : Trimmed (trim text).toList := by
  rw [trim, String.toList_ofList]
  have hstart := List.head?_dropWhile_not isBlank text.toList
  have hend := List.head?_dropWhile_not isBlank (text.toList.dropWhile isBlank).reverse
  refine ⟨?_, ?_⟩
  · intro c hc
    have hprefix : dropEnd isBlank (text.toList.dropWhile isBlank) <+: text.toList.dropWhile isBlank := by
      rw [dropEnd, ← List.reverse_suffix, List.reverse_reverse]
      exact List.dropWhile_suffix _
    obtain ⟨rest, hrest⟩ := hprefix
    have hc' : (text.toList.dropWhile isBlank).head? = some c := by
      rw [← hrest, List.head?_append, hc]
      rfl
    simpa [hc'] using hstart
  · intro c hc
    rw [dropEnd, List.getLast?_reverse] at hc
    rw [hc] at hend
    simpa using hend

/-! ## Letters of either case -/

/-- A character is another one, or the same ASCII letter in another case. -/
def Recased (c d : Char) : Prop := d = c ∨ c.isAlpha ∧ (d = c.toLower ∨ d = c.toUpper)

instance : DecidableRel Recased := fun _ _ => inferInstanceAs (Decidable (_ ∨ _))

theorem toLower_cases (c : Char) :
    c.toLower = c ∨ 65 ≤ c.toNat ∧ c.toNat ≤ 90 ∧ c.toLower.toNat = c.toNat + 32 := by
  by_cases hupper : c.isUpper
  · right
    have hrange : 65 ≤ c.toNat ∧ c.toNat ≤ 90 := by
      simpa [Char.isUpper, UInt32.le_iff_toNat_le] using hupper
    have hvalid : (c.toNat + 32).isValidChar := by
      unfold Nat.isValidChar
      omega
    rw [Char.toLower_eq_of_isUpper hupper, Char.toNat_ofNat, if_pos hvalid]
    exact ⟨hrange.1, hrange.2, rfl⟩
  · exact .inl (Char.toLower_eq_of_not_isUpper hupper)

theorem isBlank_toLower (c : Char) : isBlank c.toLower = isBlank c := by
  rcases toLower_cases c with hsame | ⟨hfrom, hto, hlower⟩
  · rw [hsame]
  · rw [Bool.eq_iff_iff]
    simp only [isBlank, hlower, Bool.or_eq_true, Bool.and_eq_true, decide_eq_true_eq]
    omega

theorem toLower_eq_dot_iff (c : Char) : c.toLower = '.' ↔ c = '.' := by
  rcases toLower_cases c with hsame | ⟨hfrom, hto, hlower⟩
  · rw [hsame]
  · refine iff_of_false ?_ ?_
    · intro hdot
      rw [hdot, show '.'.toNat = 46 from rfl] at hlower
      omega
    · rintro rfl
      exact absurd hfrom (by decide)

theorem Recased.toLower_eq (h : Recased c d) : d.toLower = c.toLower := by
  rcases h with rfl | ⟨-, rfl | rfl⟩
  · rfl
  · exact Char.toLower_toLower_eq_toLower c
  · exact Char.toLower_toUpper_eq_toLower c

end OverlayHost.Text
